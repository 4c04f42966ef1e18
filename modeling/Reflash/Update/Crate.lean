import Reflash.Registry
import Reflash.Update.Board
import Reflash.Update.Report
/-!
# Updating a crate

All boards of a crate go through their update together, one phase after the other. Reset, erase
and reboot are started on every board before any is waited for, so the whole crate takes about as
long as its slowest board. A board that fails drops out of every later phase, and nothing that it
does can stop the others.
-/

namespace Reflash.CrateUpdate

variable {σ ε : Type}

/-- One phase: what is done with each board that has not failed. A new failure is told line by
line and goes into the report. -/
def phase (work : UpdateJob Unit) : List BoardUpdate → Job Report ε (List BoardUpdate)
  | [] => return []
  | u :: rest => do
    if u.isFailed then
      return u :: (← phase work rest)
    else
      let (result, u) ← work.on u
      match result with
      | .ok () => return u :: (← phase work rest)
      | .error failure =>
        Routine.lift (Exchange.reportAll failure.events)
        Routine.modify fun report => report.recordFailure failure
        return u :: (← phase work rest)

def isCurrent (target : Version) (board : Board) : Job σ ε Bool := do
  let version ← board.readVersion
  if version.combined = target.combined then
    Job.remark (.boardCurrent board.slot version)
    Routine.lift <| Exchange.report <| .line board.slot .init
      s!"slot {board.slot.column}: firmware {version.text} is current"
    return true
  else
    return false

/-- Enter every board into the report, and give the updates to be made. Unless forced, a board
whose firmware is current is left alone. -/
def enlist (config : UpdateConfig) (force : Bool) : List Board → Job Report ε (List BoardUpdate)
  | [] => return []
  | board :: rest => do
    let current ← if force then pure false else isCurrent config.target board
    if current then
      Routine.modify fun report => report.add board.slot .current
      enlist config force rest
    else
      Routine.modify fun report => report.add board.slot .updating
      return .new board config.budgets config.timing :: (← enlist config force rest)

def runPhases (file : Image) (boards : List BoardUpdate) : Job Report ε Unit := do
  Job.remark (.resetting boards.length)
  let boards ← phase BoardUpdate.reset boards
  let boards ← phase (BoardUpdate.announced .init fun _ => BoardUpdate.waitReady) boards
  Job.remark .erasing
  let boards ← phase BoardUpdate.startErase boards
  let boards ← phase (BoardUpdate.announced .erase BoardUpdate.awaitErase) boards
  Job.remark .programming
  let boards ← boards |> phase do
    BoardUpdate.announced .program (BoardUpdate.program file)
    BoardUpdate.announced .download (BoardUpdate.download file.sizeBytes)
    BoardUpdate.announced .verify (BoardUpdate.verify file)
  Job.remark .rebooting
  let boards ← phase BoardUpdate.startReboot boards
  let _ ← phase (BoardUpdate.announced .reboot BoardUpdate.awaitReboot) boards

/-- The closing line of one board, under the step where it failed or else the last step. -/
def closingLine (slot : Slot) (st : BoardStatus) : Event :=
  .line slot (st.failedStep.getD .reboot) (Report.lineOf slot st)

def fill (boards : List Board) (config : UpdateConfig) (file : Image) (force : Bool) :
    Job Report RomError Report := do
  runPhases file (← enlist config force boards)
  let report ← Routine.get
  Routine.lift (Exchange.reportAll (report.boards.map fun (slot, st) => closingLine slot st))
  Job.remark (.crateDone report.size report.skipped report.failed report.passedMask)
  return report

/-- Update every board of a crate to an image. Unless forced, boards that run the target firmware
already are left alone. Only an image that is not loaded makes this fail, before any bus cycle. -/
def run (registry : Registry) (config : UpdateConfig) (file : Image) (force : Bool) :
    Job σ RomError Report := do
  if !file.isLoaded then
    Routine.fail .imageNotLoaded
  else
    let (result, _) ← (fill registry.boards config file force).on {}
    Routine.ofExcept result

end Reflash.CrateUpdate
