import Reflash.Rom.Polling
import Reflash.Update.Config
/-!
# Sessions with a ROM

Commands to the ROM of one board, each issued when the command engine is ready for it. A session
keeps count of what it has done.
-/

namespace Reflash

structure RomCounts where
  pageWaits : Nat := 0
  endOfCommands : Nat := 0
  writeEnables : Nat := 0
  wordsWritten : Nat := 0
  wordsRead : Nat := 0
  deriving DecidableEq, Inhabited

/-- A session with the ROM of one board. -/
structure RomSession where
  board : Board
  budgets : Budgets
  timing : Timing
  counts : RomCounts := {}
  deriving DecidableEq

abbrev RomJob (α : Type) : Type := Job RomSession RomError α

namespace RomSession

def count (f : RomCounts → RomCounts) : RomJob Unit :=
  Routine.modify fun s => { s with counts := f s.counts }

def waitReady : RomJob Unit := do
  let s ← Routine.get
  let _ ← s.board.waitReady s.budgets.commandReadyTries

/-- Poll for a ready engine within the budget after a reset. -/
def awaitEngine : RomJob Unit := do
  let s ← Routine.get
  let _ ← s.board.waitReady s.budgets.readyTries

def command (cmd : Rom.Command) : RomJob Unit := do
  waitReady
  (← Routine.get).board.issue cmd
  if cmd.endOfCommand then
    count fun c => { c with endOfCommands := c.endOfCommands + 1 }

def query (cmd : Rom.Command) : RomJob UInt32 := do
  command cmd
  waitReady
  (← Routine.get).board.readback

def readId : RomJob UInt32 := query { opcode := .readId }

def readStatus : RomJob UInt32 := do
  let s ← Routine.get
  s.board.readStatus s.budgets.commandReadyTries

/-- Set the write-enable latch. The status has to show it set. -/
def enableWrites : RomJob Unit := do
  command { opcode := .writeEnable }
  count fun c => { c with writeEnables := c.writeEnables + 1 }
  let status ← readStatus
  if !hasBits status RomStatus.writeEnabled then
    Routine.fail (.writeEnableFailed status)

def disableWrites : RomJob Unit := command { opcode := .writeDisable }

/-- Wait until no write is in progress, within a budget of status reads; the result is how many
it took. -/
def awaitWrite (tries : Nat) (onTick : Exchange Unit) : RomJob Nat := do
  let s ← Routine.get
  s.board.waitWrite tries s.budgets.commandReadyTries s.timing.writePollInterval onTick

end RomSession
end Reflash
