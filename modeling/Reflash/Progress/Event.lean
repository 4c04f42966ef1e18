import Reflash.Update.Failure
/-!
# Progress events

What an update tells whoever watches it: a step of a board begins, a long-running loop took one
more turn, the step is done, or a line of text.
-/

namespace Reflash

inductive Notice where
  | began (title : Option String)
  | ticked
  | done
  | line (text : Option String)
  deriving DecidableEq

structure Event where
  slot : Slot
  step : Step
  notice : Notice
  deriving DecidableEq

namespace Event

def began (slot : Slot) (step : Step) : Event :=
  ⟨slot, step, .began (some s!"slot {slot.column}: {step.name}")⟩

def ticked (slot : Slot) (step : Step) : Event := ⟨slot, step, .ticked⟩

def done (slot : Slot) (step : Step) : Event := ⟨slot, step, .done⟩

def line (slot : Slot) (step : Step) (text : String) : Event := ⟨slot, step, .line (some text)⟩

end Event

/-- The lines that tell why a board stopped: the cause, then the samples of a failed comparison,
then how many mismatches the samples leave out. -/
def StepFailure.lines (f : StepFailure) : List String :=
  s!"slot {f.slot.column}: FAILED at step {f.step.name}: {f.cause.message}" ::
    match f.cause with
    | .verifyMismatch total first =>
      first.map (fun m => "  " ++ m.text) ++
        if first.length < total then [s!"  ... and {total - first.length} more"] else []
    | _ => []

def StepFailure.events (f : StepFailure) : List Event :=
  f.lines.map (Event.line f.slot f.step)

end Reflash
