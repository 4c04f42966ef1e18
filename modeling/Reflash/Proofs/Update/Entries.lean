import Reflash.Proofs.Routine
import Reflash.Update.Crate
/-!
# Entries of a report

An update enters every board of the registry into its report once, in slot order. Whatever the bus
answers, nothing that comes after that adds an entry or takes one away.
-/

namespace Reflash

def Report.slots (r : Report) : List Slot := r.boards.map Prod.fst

namespace Report

variable {r : Report} {slot : Slot} {st : BoardStatus}

theorem slots_add (r : Report) (slot : Slot) (st : BoardStatus) :
    (r.add slot st).slots = r.slots ++ [slot] := by
  simp [slots, add]

theorem slots_recordFailure (r : Report) (f : StepFailure) :
    (r.recordFailure f).slots = r.slots := by
  rw [slots, recordFailure, List.map_map]
  apply List.map_congr_left
  rintro ⟨slot, st⟩ -
  dsimp only [Function.comp]
  split <;> rfl

theorem mem_boards_of_status? (h : r.status? slot = some st) : (slot, st) ∈ r.boards := by
  obtain ⟨before, after, hboards, -⟩ := List.lookup_eq_some_iff.mp h
  simp [hboards]

theorem mem_slots_of_status? (h : r.status? slot = some st) : slot ∈ r.slots :=
  List.mem_map.mpr ⟨(slot, st), mem_boards_of_status? h, rfl⟩

theorem status?_of_mem_boards (hnodup : r.slots.Nodup) (h : (slot, st) ∈ r.boards) :
    r.status? slot = some st := by
  obtain ⟨boards⟩ := r
  rw [status?]
  dsimp only at h ⊢
  induction boards with
  | nil => cases h
  | cons entry rest ih =>
      obtain ⟨first, st'⟩ := entry
      obtain ⟨hfresh, hnodup'⟩ := List.nodup_cons.mp hnodup
      rw [List.lookup_cons]
      rcases List.mem_cons.mp h with heq | hmem
      · obtain ⟨rfl, rfl⟩ := Prod.mk.injEq .. ▸ heq
        simp
      · have hne : slot ≠ first := by
          rintro rfl
          exact hfresh (List.mem_map.mpr ⟨_, hmem, rfl⟩)
        rw [beq_false_of_ne hne]
        exact ih hnodup' hmem

theorem not_isFailed_of_allOk (h : r.allOk = true) (hmem : (slot, st) ∈ r.boards) :
    st.isFailed = false := by
  rw [allOk, beq_iff_eq, failed, List.countP_eq_zero] at h
  simpa using h _ hmem

theorem allOk_of_status? (hnodup : r.slots.Nodup)
    (h : ∀ slot st, r.status? slot = some st → st.isFailed = false) : r.allOk = true := by
  rw [allOk, beq_iff_eq, failed, List.countP_eq_zero]
  rintro ⟨slot, st⟩ hmem
  simpa using h slot st (status?_of_mem_boards hnodup hmem)

end Report

namespace CrateUpdate

variable {σ ε : Type} {holds : σ → Prop} {slots : List Slot}

theorem preserves_read (b : Board) (offset : UInt32) :
    (b.read offset : Job σ ε UInt32).Preserves holds := by
  refine .bind ?_ fun address => .request (I := engine) (.read address)
  rw [Board.address]
  split
  · exact .pure _
  · exact .offBus

theorem preserves_isCurrent (target : Version) (b : Board) :
    (isCurrent target b : Job σ ε Bool).Preserves holds := by
  have hversion : (b.readVersion : Job σ ε Version).Preserves holds :=
    .bind (preserves_read b _) fun _ => .bind (preserves_read b _) fun _ => .pure _
  refine .bind hversion fun version => ?_
  split
  · exact .bind (.request _) fun _ => .bind (.lift _) fun _ => .pure true
  · exact .pure false

theorem preserves_phase (work : UpdateJob Unit) (boards : List BoardUpdate) :
    (phase work boards : Job Report ε _).Preserves fun report => report.slots = slots := by
  induction boards with
  | nil => exact .pure []
  | cons u rest ih =>
      rw [phase]
      split
      · exact .bind ih fun _ => .pure _
      · refine .bind (.on work u) fun (result, u') => ?_
        cases result with
        | ok => exact .bind ih fun _ => .pure _
        | error failure =>
            refine .bind (.lift _) fun _ => .bind (.modify fun report hslots => ?_) fun _ =>
              .bind ih fun _ => .pure _
            rw [report.slots_recordFailure]
            exact hslots

theorem preserves_runPhases (file : Image) (boards : List BoardUpdate) :
    (runPhases file boards : Job Report ε Unit).Preserves fun report => report.slots = slots :=
  .bind (.request _) fun _ => .bind (preserves_phase _ _) fun _ =>
    .bind (preserves_phase _ _) fun _ => .bind (.request _) fun _ =>
      .bind (preserves_phase _ _) fun _ => .bind (preserves_phase _ _) fun _ =>
        .bind (.request _) fun _ => .bind (preserves_phase _ _) fun _ => .bind (.request _) fun _ =>
          .bind (preserves_phase _ _) fun _ => .bind (preserves_phase _ _) fun _ => .pure ()

theorem enlist_cons (config : UpdateConfig) (force : Bool) (board : Board) (rest : List Board) :
    (enlist config force (board :: rest) : Job Report ε _) =
      (if force then pure false else isCurrent config.target board) >>= fun current =>
        if current then do
          Routine.modify fun report => report.add board.slot .current
          enlist config force rest
        else do
          Routine.modify fun report => report.add board.slot .updating
          return .new board config.budgets config.timing :: (← enlist config force rest) := by
  rw [enlist]
  split <;> rfl

theorem gives_enlist (config : UpdateConfig) (force : Bool) (boards : List Board) :
    (enlist config force boards : Job Report ε _).Gives (fun _ => True)
      (fun report => report.slots = slots) fun _ report =>
        report.slots = slots ++ boards.map Board.slot := by
  induction boards generalizing slots with
  | nil =>
      rw [List.map_nil, List.append_nil]
      exact .of_preserves (.pure [])
  | cons board rest ih =>
      have hadd : ∀ st, (Routine.modify fun report => report.add board.slot st :
          Job Report ε Unit).Gives (fun _ => True) (fun report => report.slots = slots)
            fun _ report => report.slots = slots ++ [board.slot] := by
        refine fun st => .modify fun report hslots => ?_
        rw [Report.slots_add, hslots]
      have hcurrent : (if force then pure false else isCurrent config.target board :
          Job Report ε Bool).Preserves fun report => report.slots = slots := by
        split
        · exact .pure false
        · exact preserves_isCurrent config.target board
      rw [List.map_cons, List.append_cons, enlist_cons]
      refine .bind (.of_preserves hcurrent) fun current => ?_
      split
      · exact .bind (hadd _) fun _ => ih
      · exact .bind (hadd _) fun _ => .bind ih fun _ => .of_preserves (.pure _)

/-- The report of an update has one entry for each board of the registry, in slot order. -/
theorem gives_run (registry : Registry) (config : UpdateConfig) (file : Image) (force : Bool) :
    (run registry config file force : Job σ RomError Report).Gives (fun _ => True)
      (fun _ => True) fun report _ => report.slots = registry.slots := by
  have hfill : (fill registry.boards config file force).Gives (fun _ => True)
      (fun report => report.slots = []) fun report _ => report.slots = registry.slots := by
    refine .bind (gives_enlist config force registry.boards) fun updates => ?_
    refine .bind (.of_preserves (preserves_runPhases file updates)) fun _ => ?_
    refine .bind .get fun report => ?_
    refine .bind (.of_preserves (.lift _)) fun _ => .bind (.of_preserves (.request _)) fun _ => ?_
    exact .pure fun _ hslots => hslots
  rw [run]
  split
  · exact .fail _
  · refine .bind (hfill.on rfl) fun result => .ofExcept fun report hok _ hslots => ?_
    exact hslots report hok

end CrateUpdate
end Reflash
