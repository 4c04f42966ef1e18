import Reflash.Image.Compare
import Reflash.Rom.Erasing
import Reflash.Rom.Programming
import Reflash.Rom.Reading
import Reflash.Update.Phase
/-!
# Updating one board

A board moves strictly forward through reset, erase, program, download, verify and reboot. The
first failure is final: every later step gives that same failure without a bus cycle. A step
asked for out of order is refused, also without a bus cycle. Erase and reboot come in two halves,
so that a crate can start them on every board before it waits for any.
-/

namespace Reflash

structure BoardUpdate where
  rom : RomSession
  phase : Phase := .init
  readback : Image := {}

abbrev UpdateJob (α : Type) : Type := Job BoardUpdate StepFailure α

namespace BoardUpdate

def new (board : Board) (budgets : Budgets) (timing : Timing) : BoardUpdate :=
  { rom := { board, budgets, timing } }

def board (u : BoardUpdate) : Board := u.rom.board

def slot (u : BoardUpdate) : Slot := u.board.slot

def failure? (u : BoardUpdate) : Option StepFailure := u.phase.failure?

def isFailed (u : BoardUpdate) : Bool := u.failure?.isSome

def moveTo (phase : Phase) : UpdateJob Unit := Routine.modify fun u => { u with phase }

def require (start : Phase) (step : Step) : UpdateJob Unit := do
  let u ← Routine.get
  match u.failure? with
  | some failure => Routine.fail failure
  | none =>
    if u.phase ≠ start then
      Routine.fail ⟨u.slot, step, .outOfSequence⟩

/-- Do a step's work: go to the next phase if it succeeds, and fail for good if it does not. -/
def conclude {α : Type} (step : Step) (next : Phase) (work : Job BoardUpdate RomError α) :
    UpdateJob α := do
  let slot := (← Routine.get).slot
  match ← work.attempt with
  | .ok value =>
    Job.remark (.phaseReached slot next)
    moveTo next
    return value
  | .error cause =>
    let failure : StepFailure := ⟨slot, step, cause⟩
    Job.remark (.stepFailed failure)
    moveTo (.failed failure)
    Routine.fail failure

def onRom {α : Type} (work : RomJob α) : Job BoardUpdate RomError α :=
  work.within rom fun u rom => { u with rom }

def reset : UpdateJob Unit := do
  require .init .init
  let u ← Routine.get
  u.board.write Register.reset ResetRequest.both
  Job.pause u.rom.timing.resetSettle
  moveTo .reset

def waitReady : UpdateJob Unit := do
  require .reset .init
  let id ← conclude .init .ready <| onRom do
    RomSession.awaitEngine
    RomSession.readId
  Job.remark (.romIdentified (← Routine.get).slot id)

def startErase : UpdateJob Unit := do
  require .ready .erase
  conclude .erase .erasing (onRom RomSession.startErase)

def awaitErase (onTick : Exchange Unit) : UpdateJob Unit := do
  require .erasing .erase
  let _ ← conclude .erase .erased (onRom (RomSession.awaitErase onTick))

def program (file : Image) (onTick : Exchange Unit) : UpdateJob Unit := do
  require .erased .program
  conclude .program .programmed (onRom (RomSession.program file onTick))

def download (sizeBytes : Nat) (onTick : Exchange Unit) : UpdateJob Unit := do
  require .programmed .download
  conclude .download .downloaded <| (RomSession.download sizeBytes onTick).within
    (fun u => (u.rom, u.readback))
    (fun u (rom, readback) => { u with rom, readback })

def verify (file : Image) (onTick : Exchange Unit) : UpdateJob Unit := do
  require .downloaded .verify
  let u ← Routine.get
  conclude .verify .verified (file.compare u.readback onTick)

def startReboot : UpdateJob Unit := do
  require .verified .reboot
  let u ← Routine.get
  u.board.requestReboot
  Job.pause u.rom.timing.rebootSettle
  moveTo .rebooting

/-- Probe the control version while turns are left, until the board answers with a version. Each
probe without one is told as a tick and followed by a pause. -/
def pollVersion (onTick : Exchange Unit) (board : Board) (interval tries : Nat) :
    (left : Nat) → Job BoardUpdate RomError Unit
  | 0 => Routine.fail (.rebootTimeout tries)
  | left + 1 => do
    let version? ← board.probe Register.controlVersion
    if version?.all (· == notDriven) then
      Routine.lift onTick
      Job.pause interval
      pollVersion onTick board interval tries left
    else
      Job.remark (.boardReturned board.slot (tries - left))

def awaitReboot (onTick : Exchange Unit) : UpdateJob Unit := do
  require .rebooting .reboot
  let s := (← Routine.get).rom
  conclude .reboot .rebooted
    (pollVersion onTick s.board s.timing.rebootPollInterval s.budgets.rebootTries
      s.budgets.rebootTries)

/-- A step between its progress events: its beginning, its ticks, and its end unless it fails. -/
def announced (step : Step) (body : Exchange Unit → UpdateJob Unit) : UpdateJob Unit := do
  let slot := (← Routine.get).slot
  Routine.lift (Exchange.report (.began slot step))
  body (Exchange.report (.ticked slot step))
  Routine.lift (Exchange.report (.done slot step))

def runSteps (file : Image) : UpdateJob Unit := do
  announced .init fun _ => do
    reset
    waitReady
  announced .erase fun onTick => do
    startErase
    awaitErase onTick
  announced .program (program file)
  announced .download (download file.sizeBytes)
  announced .verify (verify file)
  announced .reboot fun onTick => do
    startReboot
    awaitReboot onTick

/-- The whole update; a failure is reported line by line. -/
def run (file : Image) : UpdateJob Unit := do
  match ← (runSteps file).attempt with
  | .ok () => return ()
  | .error failure =>
    Routine.lift (Exchange.reportAll failure.events)
    Routine.fail failure

end BoardUpdate
end Reflash
