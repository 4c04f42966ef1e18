import Reflash.Rom.Framing
/-!
# Polling

The two polling loops: until the command engine is ready, and until no write is in progress.
Both are bounded by a number of turns, and a bound of zero times out without a bus cycle.
-/

namespace Reflash.Board

variable {σ : Type}

/-- Poll for a ready engine while turns are left; the result is the number of polls out of
`tries` that it took. -/
def awaitReady (b : Board) (tries : Nat) : (left : Nat) → Job σ RomError Nat
  | 0 => Routine.fail (.readyTimeout tries)
  | left + 1 => do
    if ← b.engineReady then
      return tries - left
    else
      b.awaitReady tries left

def waitReady (b : Board) (tries : Nat) : Job σ RomError Nat := b.awaitReady tries tries

/-- Have the ROM report its status register, waiting for the engine before and after. -/
def readStatus (b : Board) (readyTries : Nat) : Job σ RomError UInt32 := do
  let _ ← b.waitReady readyTries
  b.issue { opcode := .readStatus }
  let _ ← b.waitReady readyTries
  b.readback

/-- Read the status while turns are left, until no write is in progress. Each status that still
shows one is told as a tick and followed by a pause. -/
def awaitWrite (b : Board) (readyTries interval : Nat) (onTick : Exchange Unit) (tries : Nat) :
    (left : Nat) → Job σ RomError Nat
  | 0 => Routine.fail (.writeTimeout tries)
  | left + 1 => do
    let status ← b.readStatus readyTries
    if hasBits status RomStatus.writing then
      Routine.lift onTick
      Job.pause interval
      b.awaitWrite readyTries interval onTick tries left
    else
      Job.remark (.writeComplete (tries - left))
      return tries - left

def waitWrite (b : Board) (tries readyTries interval : Nat) (onTick : Exchange Unit) :
    Job σ RomError Nat :=
  b.awaitWrite readyTries interval onTick tries tries

end Reflash.Board
