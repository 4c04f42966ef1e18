import Reflash.Proofs.Simulation.Crate
import Reflash.Proofs.Update.Stages
import Reflash.Update.Crate
/-!
# Strands of a crate's update

A strand is one board's share of a crate's update: its own update, the simulated board, and what
the report says of it. A phase advances every strand as if its board were alone on the bus, and
touches nothing else. Through all stages a strand comes to where a whole update would take it.
-/

namespace Reflash

def BoardStatus.after (st : BoardStatus) : Outcome StepFailure Unit → BoardStatus
  | .failed failure => st.failedAt failure.step
  | .ok () | .offBus => st

namespace Report

theorem status?_add (report : Report) (slot other : Slot) (st : BoardStatus) :
    (report.add slot st).status? other =
      (report.status? other).or (if other = slot then some st else none) := by
  rw [status?, add, List.lookup_append, status?]
  congr 1
  by_cases h : other = slot
  · simp [h]
  · have hbeq : (other == slot) = false := beq_false_of_ne h
    simp [List.lookup_cons, hbeq, h]

theorem status?_recordFailure (report : Report) (failure : StepFailure) (slot : Slot) :
    (report.recordFailure failure).status? slot =
      if slot = failure.slot then (report.status? slot).map (·.failedAt failure.step)
      else report.status? slot := by
  obtain ⟨boards⟩ := report
  rw [status?, recordFailure, status?]
  dsimp only
  induction boards with
  | nil => simp
  | cons entry rest ih =>
      obtain ⟨first, st⟩ := entry
      rw [List.map_cons]
      by_cases hfirst : slot = first
      · subst hfirst
        by_cases hfailed : slot = failure.slot <;> simp [hfailed]
      · have hbeq : (slot == first) = false := beq_false_of_ne hfirst
        by_cases hfailed : first = failure.slot
        · rw [if_pos hfailed, List.lookup_cons, List.lookup_cons, hbeq]
          exact ih
        · rw [if_neg hfailed, List.lookup_cons, List.lookup_cons, hbeq]
          exact ih

end Report

/-- One board's share of the update of a crate. -/
structure Strand where
  update : BoardUpdate
  board : SimulatedBoard
  status : BoardStatus

namespace Strand

open BoardUpdate

variable {x : Strand} {start mid next : Phase} {job : UpdateJob Unit}

def slot (x : Strand) : Slot := x.update.slot

/-- The strand after a job of a phase, for which the board is alone on the bus. -/
def advance (x : Strand) (job : UpdateJob Unit) : Strand :=
  if x.update.isFailed then x
  else
    let ((out, update), board) := (job x.update).run Bus.handler x.board
    ⟨update, board, x.status.after out⟩

/-- The strand is of a board at its geographic address, and it has come to a phase or failed. -/
structure At (phase : Phase) (x : Strand) : Prop where
  board_eq : x.update.board = .geographic x.slot
  phase_eq : x.update.isFailed = true ∨ x.update.phase = phase

theorem not_isFailed_of_phase {u : BoardUpdate} (hphase : u.phase = start)
    (hstart : start.failure? = none) : u.isFailed = false := by
  rw [isFailed, BoardUpdate.failure?, hphase, hstart]
  rfl

theorem run_job (hjob : Moves start next job) {u : BoardUpdate} {slot : Slot}
    (hu : u.board = .geographic slot)
    (hphase : u.phase = start) (b : SimulatedBoard) :
    ∃ out u' b', (job u).run Bus.handler b = ((out, u'), b') ∧ u'.board = .geographic slot ∧
      (out = .ok () ∧ u'.phase = next ∨
        ∃ failure, failure.slot = slot ∧ out = .failed failure ∧ u'.phase = .failed failure) := by
  have hends := Routine.ends_run job u b
  obtain ⟨hboard, hout⟩ := hjob.leads _ (Slot.fits_geographic slot) hu hphase hends
  refine ⟨_, _, _, rfl, hboard, ?_⟩
  obtain hok | ⟨step, -, cause, hfailed⟩ := hout
  · exact .inl hok
  · exact .inr ⟨⟨slot, step, cause⟩, rfl, hfailed⟩

theorem advance_of_isFailed (h : x.update.isFailed = true) : x.advance job = x := by
  rw [advance, if_pos h]

theorem advance_of_run {out : Outcome StepFailure Unit} {u : BoardUpdate} {b : SimulatedBoard}
    (h : x.update.isFailed = false)
    (hrun : (job x.update).run Bus.handler x.board = ((out, u), b)) :
    x.advance job = ⟨u, b, x.status.after out⟩ := by
  rw [advance, h, if_neg Bool.false_ne_true, hrun]

theorem At.advance (hx : x.At start) (hjob : Moves start next job) :
    (x.advance job).slot = x.slot ∧ (x.advance job).At next := by
  by_cases hfailed : x.update.isFailed = true
  · rw [advance_of_isFailed hfailed]
    exact ⟨rfl, hx.board_eq, .inl hfailed⟩
  · have hphase := hx.phase_eq.resolve_left hfailed
    obtain ⟨out, u', b', hrun, hboard, hout⟩ := run_job hjob hx.board_eq hphase x.board
    rw [advance_of_run (Bool.eq_false_of_not_eq_true hfailed) hrun]
    have hslot : u'.slot = x.slot := by rw [BoardUpdate.slot, hboard, Board.geographic]
    refine ⟨hslot, ?_, ?_⟩
    · show u'.board = .geographic u'.slot
      rw [hslot]
      exact hboard
    · obtain ⟨-, hnext⟩ | ⟨failure, -, -, hnext⟩ := hout
      · exact .inr hnext
      · left
        show u'.isFailed = true
        rw [isFailed, BoardUpdate.failure?, hnext]
        rfl

theorem foldl_advance_of_isFailed (jobs : List (UpdateJob Unit)) (h : x.update.isFailed = true) :
    jobs.foldl advance x = x := by
  induction jobs with
  | nil => rfl
  | cons job rest ih => rw [List.foldl_cons, advance_of_isFailed h, ih]

/-- A strand that goes through a course comes to where the jobs in turn take its board alone. -/
theorem foldl_advance {jobs : List (UpdateJob Unit)} (hcourse : Course start jobs next)
    {u : BoardUpdate} {slot : Slot} (hu : u.board = .geographic slot) (hphase : u.phase = start)
    (b : SimulatedBoard) (st : BoardStatus) :
    jobs.foldl advance ⟨u, b, st⟩ =
      ⟨((inTurn jobs u).run Bus.handler b).1.2, ((inTurn jobs u).run Bus.handler b).2,
        st.after ((inTurn jobs u).run Bus.handler b).1.1⟩ := by
  induction hcourse generalizing u b st with
  | nil => rfl
  | cons hjob hrest ih =>
      obtain ⟨out, u', b', hrun, hboard, hout⟩ := run_job hjob hu hphase b
      have hfailed := not_isFailed_of_phase hphase hjob.start_eq
      rw [List.foldl_cons, advance_of_run hfailed hrun, inTurn]
      obtain ⟨rfl, hmid⟩ | ⟨failure, -, rfl, hmid⟩ := hout
      · rw [Routine.run_bind_ok hrun]
        exact ih hboard hmid b' _
      · rw [Routine.run_bind_failed hrun, foldl_advance_of_isFailed]
        show u'.isFailed = true
        rw [isFailed, BoardUpdate.failure?, hmid]
        rfl

end Strand
end Reflash
