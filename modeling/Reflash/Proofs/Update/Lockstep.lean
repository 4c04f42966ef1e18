import Reflash.Proofs.Update.Strand
/-!
# Phases of a crate in lockstep

A phase goes through the boards one after the other. On a simulated crate it advances the strand of
each of them, whatever becomes of the others, and leaves every other slot alone. By induction on
the boards this holds of a phase, and by going from phase to phase it holds of all of them.
-/

namespace Reflash.CrateUpdate

open BoardUpdate

variable {ε : Type} {c c' c₁ : SimulatedCrate} {report report' report₁ : Report} {x : Strand}
  {start mid next : Phase} {job : UpdateJob Unit}

def Holds (c : SimulatedCrate) (report : Report) (x : Strand) : Prop :=
  c.board? x.slot = some x.board ∧ report.status? x.slot = some x.status

def Frames (slots : List Slot) (c : SimulatedCrate) (report : Report) (c' : SimulatedCrate)
    (report' : Report) : Prop :=
  ∀ slot ∉ slots, c'.board? slot = c.board? slot ∧ report'.status? slot = report.status? slot

theorem Frames.refl (slots : List Slot) : Frames slots c report c report := fun _ _ => ⟨rfl, rfl⟩

theorem Frames.trans {slots slots' : List Slot} (h : Frames slots c report c₁ report₁)
    (h' : Frames slots' c₁ report₁ c' report') :
    Frames (slots ++ slots') c report c' report' := by
  intro slot hslot
  rw [List.mem_append, not_or] at hslot
  obtain ⟨hboard, hstatus⟩ := h slot hslot.1
  obtain ⟨hboard', hstatus'⟩ := h' slot hslot.2
  exact ⟨hboard'.trans hboard, hstatus'.trans hstatus⟩

theorem Frames.mono {slots slots' : List Slot} (h : Frames slots c report c' report')
    (hslots : slots ⊆ slots') : Frames slots' c report c' report' :=
  fun slot hslot => h slot fun hmem => hslot (hslots hmem)

theorem Holds.of_frames {slots : List Slot} (hx : Holds c report x)
    (h : Frames slots c report c' report') (hslot : x.slot ∉ slots) : Holds c' report' x := by
  obtain ⟨hboard, hstatus⟩ := h x.slot hslot
  exact ⟨hboard.trans hx.1, hstatus.trans hx.2⟩

theorem run_on (report : Report) {out : Outcome StepFailure Unit} {u u' : BoardUpdate}
    (h : (job u).run Bus.handler c = ((out, u'), c')) (hout : out ≠ .offBus) :
    ∃ result, ((job.on u : Job Report ε _) report).run Bus.handler c =
        ((.ok (result, u'), report), c') ∧
      (out = .ok () ∧ result = .ok () ∨
        ∃ failure, out = .failed failure ∧ result = .error failure) := by
  rw [Routine.on, Dialogue.run_bind, h]
  cases out with
  | ok => exact ⟨.ok (), rfl, .inl ⟨rfl, rfl⟩⟩
  | failed failure => exact ⟨.error failure, rfl, .inr ⟨failure, rfl, rfl⟩⟩
  | offBus => exact absurd rfl hout

/-- A phase advances the strand of its first board, and then goes on with the others. -/
theorem run_phase_cons (hjob : Moves start next job) (hx : x.At start)
    (hholds : Holds c report x) (rest : List BoardUpdate) :
    ∃ c₁ report₁,
      ((phase job (x.update :: rest) : Job Report ε _) report).run Bus.handler c =
          ((phase job rest >>= fun boards => pure ((x.advance job).update :: boards) :
            Job Report ε _) report₁).run Bus.handler c₁ ∧
        Holds c₁ report₁ (x.advance job) ∧ Frames [x.slot] c report c₁ report₁ := by
  by_cases hfailed : x.update.isFailed = true
  · -- Neither the phase nor the strand goes on after a failure.
    refine ⟨c, report, ?_, ?_, .refl _⟩
    · rw [phase, if_pos hfailed, Strand.advance_of_isFailed hfailed]
    · rwa [Strand.advance_of_isFailed hfailed]
  · have hphase := hx.phase_eq.resolve_left hfailed
    obtain ⟨out, u', b', halone, hboard, hout⟩ := Strand.run_job hjob hx.board_eq hphase x.board
    have hkeeps := hjob.keeps _ x.slot.fits_geographic x.update hx.board_eq
    have hcrate : (job x.update).run Bus.handler c = ((out, u'), c.insert x.slot b') := by
      rw [SimulatedCrate.run_of_owns hkeeps hholds.1, halone]
    have hbus : out ≠ .offBus := by
      obtain ⟨rfl, -⟩ | ⟨_, -, rfl, -⟩ := hout <;> exact nofun
    obtain ⟨result, hon, hresult⟩ := run_on report hcrate hbus
    have hslot : u'.slot = x.slot := by rw [BoardUpdate.slot, hboard, Board.geographic]
    have hothers : ∀ slot ∉ [x.slot], (c.insert x.slot b').board? slot = c.board? slot :=
      fun slot hmem => SimulatedCrate.board?_insert_of_ne c b' (by simpa using hmem)
    have hself : (c.insert x.slot b').board? u'.slot = some b' := by
      rw [hslot, SimulatedCrate.board?_insert_self]
    rw [Strand.advance_of_run (Bool.eq_false_of_not_eq_true hfailed) halone, phase,
      if_neg hfailed, Routine.run_bind_ok hon]
    obtain ⟨rfl, rfl⟩ | ⟨failure, rfl, rfl⟩ := hresult
    · refine ⟨c.insert x.slot b', report, rfl, ⟨hself, ?_⟩, fun slot hmem => ?_⟩
      · show report.status? u'.slot = some x.status
        rw [hslot]
        exact hholds.2
      · exact ⟨hothers slot hmem, rfl⟩
    · obtain ⟨habsurd, -⟩ | ⟨_, hat, hfailure, -⟩ := hout
      · cases habsurd
      · obtain rfl : failure = _ := by simpa using hfailure
        refine ⟨c.insert x.slot b', report.recordFailure failure, ?_, ⟨hself, ?_⟩, ?_⟩
        · exact Routine.run_lift_bind (Exchange.isSilent_reportAll failure.events) _ report _
        · show (report.recordFailure failure).status? u'.slot =
            some (x.status.failedAt failure.step)
          rw [Report.status?_recordFailure, hslot, if_pos hat.symm, hholds.2]
          rfl
        · intro slot hmem
          have hne : slot ≠ failure.slot := by
            rw [hat]
            simpa using hmem
          rw [Report.status?_recordFailure, if_neg hne]
          exact ⟨hothers slot hmem, rfl⟩

/-- The strands have distinct slots, are all in a phase unless they failed, and are what the crate
and the report hold. -/
structure Stands (phase : Phase) (c : SimulatedCrate) (report : Report) (strands : List Strand) :
    Prop where
  nodup : (strands.map Strand.slot).Nodup
  at_phase : ∀ x ∈ strands, x.At phase
  holds : ∀ x ∈ strands, Holds c report x

theorem Stands.cons {phase : Phase} {strands : List Strand} (h : Stands phase c report strands)
    (hfresh : x.slot ∉ strands.map Strand.slot) (hx : x.At phase) (hholds : Holds c report x) :
    Stands phase c report (x :: strands) :=
  ⟨List.nodup_cons.mpr ⟨hfresh, h.nodup⟩, List.forall_mem_cons.mpr ⟨hx, h.at_phase⟩,
    List.forall_mem_cons.mpr ⟨hholds, h.holds⟩⟩

/-- The work on a crate takes every strand through the same jobs, each by itself. -/
def Takes (start next : Phase) (work : List BoardUpdate → Job Report ε (List BoardUpdate))
    (jobs : List (UpdateJob Unit)) : Prop :=
  ∀ ⦃strands : List Strand⦄ ⦃c : SimulatedCrate⦄ ⦃report : Report⦄, Stands start c report strands →
    ∃ c' report' strands', strands' = (strands.map fun x => jobs.foldl Strand.advance x) ∧
      (work (strands.map Strand.update) report).run Bus.handler c =
        ((.ok (strands'.map Strand.update), report'), c') ∧
      Stands next c' report' strands' ∧ strands'.map Strand.slot = strands.map Strand.slot ∧
      Frames (strands.map Strand.slot) c report c' report'

theorem takes_phase (hjob : Moves start next job) :
    Takes start next (phase job : _ → Job Report ε _) [job] := by
  intro strands c report hstands
  induction strands generalizing c report with
  | nil => exact ⟨c, report, [], rfl, rfl, ⟨by simp, by simp, by simp⟩, rfl, .refl _⟩
  | cons x rest ih =>
      have hx := hstands.at_phase x List.mem_cons_self
      obtain ⟨c₁, report₁, hrun, hhead, hframe⟩ := run_phase_cons hjob hx
        (hstands.holds x List.mem_cons_self) (rest.map Strand.update)
      obtain ⟨hfresh, hnodup⟩ := List.nodup_cons.mp hstands.nodup
      have hrest : Stands start c₁ report₁ rest := by
        refine ⟨hnodup, fun y hy => hstands.at_phase y (List.mem_cons_of_mem x hy), ?_⟩
        intro y hy
        refine (hstands.holds y (List.mem_cons_of_mem x hy)).of_frames hframe ?_
        intro hmem
        rw [List.mem_singleton] at hmem
        exact hfresh (List.mem_map.mpr ⟨y, hy, hmem⟩)
      obtain ⟨c', report', rest', hrest', hrun', hstands', hslots, hframe'⟩ := ih hrest
      obtain ⟨hslot, hat⟩ := hx.advance hjob
      rw [← hslot] at hfresh
      have hhead' := hhead.of_frames hframe' hfresh
      rw [← hslots] at hfresh
      refine ⟨c', report', x.advance job :: rest', ?_, ?_, hstands'.cons hfresh hat hhead', ?_,
        hframe.trans hframe'⟩
      · rw [hrest']
        rfl
      · rw [List.map_cons, hrun, Routine.run_bind_ok hrun']
        rfl
      · rw [List.map_cons, hslot, hslots, List.map_cons]

theorem Takes.bind {work work' : List BoardUpdate → Job Report ε (List BoardUpdate)}
    {jobs jobs' : List (UpdateJob Unit)} (h : Takes start mid work jobs)
    (h' : Takes mid next work' jobs') :
    Takes start next (fun boards => work boards >>= work') (jobs ++ jobs') := by
  intro strands c report hstands
  obtain ⟨c₁, report₁, strands₁, rfl, hrun, hstands₁, hslots, hframe⟩ := h hstands
  obtain ⟨c', report', strands', rfl, hrun', hstands', hslots', hframe'⟩ := h' hstands₁
  refine ⟨c', report', _, ?_, ?_, hstands', hslots'.trans hslots, ?_⟩
  · simp only [List.map_map, List.foldl_append]
    rfl
  · dsimp only
    rw [Routine.run_bind_ok hrun, hrun']
  · rw [hslots] at hframe'
    refine (hframe.trans hframe').mono (List.append_subset.mpr ?_)
    exact ⟨List.Subset.refl _, List.Subset.refl _⟩

theorem Takes.remark {work : List BoardUpdate → Job Report ε (List BoardUpdate)}
    {jobs : List (UpdateJob Unit)} (r : Remark) (h : Takes start next work jobs) :
    Takes start next (fun boards => Job.remark r >>= fun _ => work boards) jobs := h

def throughPhases (file : Image) (boards : List BoardUpdate) : Job Report ε (List BoardUpdate) := do
  let boards ← phase BoardUpdate.reset boards
  let boards ← phase (announced .init fun _ => waitReady) boards
  Job.remark .erasing
  let boards ← phase startErase boards
  let boards ← phase (announced .erase awaitErase) boards
  Job.remark .programming
  let boards ← phase (refill file) boards
  Job.remark .rebooting
  let boards ← phase startReboot boards
  phase (announced .reboot awaitReboot) boards

theorem takes_throughPhases (file : Image) :
    Takes .init .rebooted (throughPhases file : _ → Job Report ε _) (stages file) :=
  (takes_phase moves_reset).bind <| (takes_phase moves_waitReady).bind <|
    .remark .erasing <| (takes_phase moves_startErase).bind <|
    (takes_phase moves_awaitErase).bind <| .remark .programming <|
    (takes_phase (moves_refill file)).bind <| .remark .rebooting <|
    (takes_phase moves_startReboot).bind (takes_phase moves_awaitReboot)

theorem runPhases_eq (file : Image) (boards : List BoardUpdate) :
    (runPhases file boards : Job Report ε Unit) =
      (do Job.remark (.resetting boards.length); let _ ← throughPhases file boards) := by
  simp only [runPhases, throughPhases, refill, bind_assoc]

/-- The update of a crate takes every strand through all stages, as if its board were alone. -/
theorem run_runPhases (file : Image) {strands : List Strand}
    (hstands : Stands .init c report strands) :
    ∃ c' report', ((runPhases file (strands.map Strand.update) : Job Report ε _) report).run
          Bus.handler c = ((.ok (), report'), c') ∧
      (∀ x ∈ strands, ((stages file).foldl Strand.advance x).slot = x.slot ∧
        Holds c' report' ((stages file).foldl Strand.advance x)) ∧
      Frames (strands.map Strand.slot) c report c' report' := by
  obtain ⟨c', report', _, rfl, hrun, hstands', hslots, hframe⟩ :=
    takes_throughPhases file hstands
  refine ⟨c', report', ?_, ?_, hframe⟩
  · rw [runPhases_eq]
    exact Routine.run_bind_ok hrun
  · rw [List.map_map] at hslots
    intro x hx
    exact ⟨List.map_inj_left.mp hslots x hx, hstands'.holds _ (List.mem_map_of_mem hx)⟩

end Reflash.CrateUpdate
