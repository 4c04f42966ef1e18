import Reflash.Update.Crate
import Reflash.Host.RunError
import Reflash.Host.Workstation
import Reflash.Text.Style
/-!
# The tool

What one run of the command line does: it reads the description of the crate, gets hold of a bus,
looks for boards, and programs, saves, verifies or identifies one of them, or updates them all.
Before anything is erased, the image has been read and the user has agreed.
-/

namespace Reflash.Host

abbrev Run (α : Type) : Type := Routine workstation Unit RunError α

structure Order where
  arguments : Arguments
  config : CrateConfig := {}
  colored : Bool := false

namespace Run

variable {σ ε α : Type}

def ask (r : ToolRequest) : Run r.Answer := Routine.request (I := workstation) r

def say (line : String) : Run Unit := ask (.print (line ++ "\n"))

/-- A routine of the update engine on a state of its own; the result is what came of it. -/
def engine (job : Job σ ε α) (s : σ) : Run (Except ε α × σ) :=
  (Routine.embed (J := workstation) .engine (fun _ answer => answer) job).on s

def must (wrap : ε → RunError) (job : Job σ ε α) (s : σ) : Run (α × σ) := do
  let (result, s) ← engine job s
  return (← Routine.ofExcept (result.mapError wrap), s)

def always (job : Job Unit Empty α) : Run α := do
  return (← must nofun job ()).1

def remark (r : Remark) : Run Unit := always (Job.remark r)

def orFail (wrap : OsError → RunError) (answer : Except OsError α) : Run α :=
  Routine.ofExcept (answer.mapError wrap)

end Run

namespace Order

open Text

def file (o : Order) : Run String :=
  Routine.ofExcept (o.arguments.neededFile.mapError .badArguments)

def readImage (o : Order) : Run Image := do
  let path ← o.file
  let image ← Routine.ofExcept ((Image.ofFile path (← Run.ask (.readFile path))).mapError .badImage)
  Run.remark (.imageRead image.wordCount path)
  return image

/-- Whether a line says yes: its first visible character is a letter y. -/
def saysYes (line : String) : Bool :=
  match trimStart line.toList with
  | 'y' :: _ | 'Y' :: _ => true
  | _ => false

/-- Have the user agree that the ROMs of some boards are erased, unless agreed beforehand. -/
def confirm (o : Order) (boards : Nat) : Run Unit := do
  if !o.arguments.yes then
    Run.ask <| .print <| s!"This erases the configuration ROM of {boards} board(s). " ++
      "Continue? [y/N] "
    let line ← Run.orFail .noAnswer (← Run.ask .readLine)
    if !saysYes line then
      Routine.fail .aborted

def session (o : Order) (board : Board) : RomSession :=
  { board, budgets := o.config.update.budgets, timing := o.config.update.timing }

def identify (o : Order) (board : Board) : Run Unit := do
  let (id, _) ← Run.must .romFailed
    (do
      RomSession.awaitEngine
      RomSession.readId)
    (o.session board)
  let version ← Run.always board.readVersion
  Run.say s!"slot {board.slot.number}: rom id {hex 6 id.toNat}, firmware {version.text}"

def readBack (o : Order) (board : Board) (sizeBytes : Nat) : Run Image := do
  let (_, _, image) ← Run.must .romFailed
    (do
      RomSession.awaitEngine.within (fun (s, _) => s) (fun (_, image) s => (s, image))
      RomSession.download sizeBytes Exchange.silent)
    (o.session board, {})
  return image

def save (o : Order) (board : Board) : Run Unit := do
  let path ← o.file
  let rom ← o.readBack board o.config.update.imageSizeBytes
  let bytes ← Routine.ofExcept (rom.toBytes.mapError .badImage)
  Run.orFail (fun cause => .badImage (.inaccessible path cause))
    (← Run.ask (.writeFile path bytes))
  Run.say s!"slot {board.slot.number}: saved {rom.sizeBytes} bytes to {path}"

/-- Compare a board's ROM against the file, as far as the file goes. -/
def verify (o : Order) (board : Board) : Run Unit := do
  let file ← o.readImage
  let rom ← o.readBack board file.sizeBytes
  match ← Run.engine (file.compare rom Exchange.silent) () with
  | (.ok (), _) =>
    Run.say (s!"slot {board.slot.number}: " ++ styled o.colored .good "verified")
  | (.error cause, _) =>
    let failure : StepFailure := ⟨board.slot, .verify, cause⟩
    Run.always (Routine.lift (Exchange.reportAll failure.events))
    Routine.fail (.stepFailed failure)

def program (o : Order) (board : Board) : Run Unit := do
  let file ← o.readImage
  o.confirm 1
  let _ ← Run.must .programmingFailed (BoardUpdate.run file)
    (.new board o.config.update.budgets o.config.update.timing)
  let version ← Run.always board.readVersion
  let passed := styled o.colored .good "passed"
  Run.say s!"slot {board.slot.number}: {passed}, firmware {version.text}"

def summary (o : Order) (r : Report) : String :=
  let failed := styled o.colored (if r.failed = 0 then .good else .alarming) s!"{r.failed} failed"
  let skipped := styled o.colored .notable (toString r.skipped)
  s!"{r.size} boards, {skipped} skipped, {failed}; passed mask {hex 6 r.passedMask.toNat}"

def updateAll (o : Order) (registry : Registry) : Run Unit := do
  let file ← o.readImage
  o.confirm registry.size
  let (report, _) ← Run.must .romFailed
    (CrateUpdate.run registry o.config.update file o.arguments.force) ()
  Run.say (o.summary report)
  if !report.allOk then
    Routine.fail (.boardsFailed report.failed)

def covered (o : Order) (found : Registry) : Except SlotError Registry :=
  if o.config.slots.isEmpty then .ok found else found.select o.config.slots.contains

def findBoards (o : Order) : Run Registry := do
  let found ← Run.always (Registry.discover Register.boardId isFlashAdc)
  let registry ← Routine.ofExcept ((o.covered found).mapError .badSlot)
  if registry.isEmpty then
    Routine.fail .noBoards
  Run.remark (.boardsFound registry.size registry.mask)
  return registry

def run (o : Order) (mode : Mode) : Run Unit := do
  let registry ← o.findBoards
  match mode with
  | .all => o.updateAll registry
  | .single operation =>
    let n ← Routine.ofExcept (o.arguments.slotNumber.mapError .badArguments)
    let board ← Routine.ofExcept ((registry.resolve n).mapError .badSlot)
    match operation with
    | .program => o.program board
    | .save => o.save board
    | .verify => o.verify board
    | .id => o.identify board

end Order

namespace Arguments

def readConfig (a : Arguments) : Run CrateConfig := do
  match a.config with
  | none => return {}
  | some path =>
    let content ← Run.orFail (.unreadableDescription path) (← Run.ask (.readFile path))
    let text ← Run.orFail (.unreadableDescription path) (textOf content.toBytes)
    Routine.ofExcept ((CrateConfig.ofText text).mapError (.badDescription path text))

def runOnBench (a : Arguments) (colored : Bool) : Run Unit := do
  let mode ← Routine.ofExcept (a.mode.mapError .badArguments)
  let described ← a.readConfig
  let config := { described with update.timing := .immediate }
  Order.run { arguments := a, config, colored } mode

def runSimulated (a : Arguments) (mode : Mode) (config : CrateConfig) (colored : Bool)
    (count : Nat) : Run Unit := do
  match SimulatedCrate.standard? count config.update.target with
  | none => Routine.fail .badCrateSize
  | some crate =>
    Run.remark (.simulating count)
    Run.ask (.simulate crate)
    let hurried := { config with update.timing := .immediate }
    Order.run { arguments := a, config := hurried, colored } mode

/-- Work on the crate behind the window. Failed cycles are told at the end, whatever came of the
run. -/
def runOnWindow (a : Arguments) (mode : Mode) (config : CrateConfig) (colored : Bool) :
    Run Unit := do
  Run.orFail (.noWindow config.device) (← Run.ask (.openWindow config.device))
  let result ← (Order.run { arguments := a, config, colored } mode).attempt
  let cycles ← Run.ask .failedCycles
  if cycles ≠ 0 then
    Run.remark (.cyclesFailed cycles)
  Routine.ofExcept result

def run (a : Arguments) (colored : Bool) : Run Unit := do
  let mode ← Routine.ofExcept (a.mode.mapError .badArguments)
  let described ← a.readConfig
  let config := { described with device := a.device.getD described.device }
  match a.simulate with
  | some count => a.runSimulated mode config colored count
  | none => a.runOnWindow mode config colored

end Arguments
end Reflash.Host
