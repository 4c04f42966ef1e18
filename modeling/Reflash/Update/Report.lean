import Reflash.Update.Failure
/-!
# Reports of a crate

What became of each board of a crate: left out because its firmware was current, passed, or
failed at a step.
-/

namespace Reflash

structure BoardStatus where
  /-- The board runs the target firmware already and was left alone. -/
  skip : Bool := false
  passed : Bool := false
  failedStep : Option Step := none
  deriving DecidableEq

namespace BoardStatus

def current : BoardStatus := { skip := true }

def updating : BoardStatus := { passed := true }

def failedAt (st : BoardStatus) (step : Step) : BoardStatus :=
  { st with passed := false, failedStep := some step }

def isFailed (st : BoardStatus) : Bool := !st.skip && !st.passed

def text (st : BoardStatus) : String :=
  if st.skip then "skip"
  else if st.passed then "passed"
  else match st.failedStep with
    | some step => s!"FAILED at step {step.name}"
    | none => "FAILED"

end BoardStatus

/-- What became of every board of a crate, in ascending slot order. -/
structure Report where
  boards : List (Slot × BoardStatus) := []
  deriving DecidableEq

namespace Report

def add (r : Report) (slot : Slot) (st : BoardStatus) : Report := ⟨r.boards ++ [(slot, st)]⟩

def status? (r : Report) (slot : Slot) : Option BoardStatus := r.boards.lookup slot

def size (r : Report) : Nat := r.boards.length

def skipped (r : Report) : Nat := r.boards.countP fun (_, st) => st.skip

def failed (r : Report) : Nat := r.boards.countP fun (_, st) => st.isFailed

def allOk (r : Report) : Bool := r.failed == 0

def passedMask (r : Report) : UInt32 :=
  r.boards.foldl (fun m (slot, st) => if st.passed then m ||| slot.mask else m) 0

def recordFailure (r : Report) (f : StepFailure) : Report :=
  ⟨r.boards.map fun (slot, st) => if slot = f.slot then (slot, st.failedAt f.step) else (slot, st)⟩

def lineOf (slot : Slot) (st : BoardStatus) : String := s!"slot {slot.column}: {st.text}"

def text (r : Report) : String :=
  r.boards.foldl (fun text (slot, st) => text ++ lineOf slot st ++ "\n") ""

end Report
end Reflash
