import Reflash.Slot
import Reflash.Update.Step
/-!
# Failures

Why driving a ROM can fail, and the failure of one step of one board's update, which keeps the
cause. Wordings are in the `message` functions.
-/

namespace Reflash

structure Mismatch where
  index : Nat
  expected : UInt32
  actual : UInt32
  deriving DecidableEq

def Mismatch.text (m : Mismatch) : String :=
  s!"word {Text.hex 6 m.index}: file {Text.hex 8 m.expected.toNat}, rom {Text.hex 8 m.actual.toNat}"

def maxSamples : Nat := 16

inductive RomError where
  | imageNotLoaded
  | readyTimeout (tries : Nat)
  | writeTimeout (tries : Nat)
  | rebootTimeout (tries : Nat)
  /-- The write-enable latch did not take; the status that showed it. -/
  | writeEnableFailed (status : UInt32)
  /-- A size of no whole number of words, or too large. -/
  | badTransferSize (bytes : Nat)
  | sizeMismatch (fileWords romWords : Nat)
  /-- The number of differing words, and the first of them. -/
  | verifyMismatch (total : Nat) (first : List Mismatch)
  | outOfSequence
  deriving DecidableEq

namespace RomError

def message : RomError → String
  | imageNotLoaded => "image not loaded"
  | readyTimeout tries => s!"command engine not ready after {tries} polls"
  | writeTimeout tries => s!"write still in progress after {tries} polls"
  | rebootTimeout tries => s!"board did not return from reboot after {tries} polls"
  | writeEnableFailed status => s!"write enable not latched (status {Text.hex 2 status.toNat})"
  | badTransferSize bytes => s!"bad transfer size: {bytes} bytes"
  | sizeMismatch fileWords romWords =>
    s!"size mismatch: file has {fileWords} words, rom {romWords}"
  | verifyMismatch total _ => s!"{total} words differ"
  | outOfSequence => "step run out of sequence"

end RomError

structure StepFailure where
  slot : Slot
  step : Step
  cause : RomError
  deriving DecidableEq

def StepFailure.message (f : StepFailure) : String :=
  s!"slot {f.slot.number}: {f.step.name} failed: {f.cause.message}"

end Reflash
