import Reflash.Proofs.Registry
import Reflash.Proofs.Simulation.Update
import Reflash.Proofs.Update.Lockstep
/-!
# Isolation of boards

The update of a crate comes to the same, for each of its boards, as a whole update of that board
alone. Who is updated is settled before, by two reads of each board's version registers. Nothing
that one board does, and no way in which it fails, reaches another.
-/

namespace Reflash

namespace SimulatedBoard

def versionReads (b : SimulatedBoard) : Version × SimulatedBoard :=
  let control := b.read Register.controlVersion
  let processing := control.2.read Register.processingVersion
  (⟨control.1.toUInt16, processing.1.toUInt16⟩, processing.2)

end SimulatedBoard

def SimulatedCrate.sole (slot : Slot) (b : SimulatedBoard) : SimulatedCrate :=
  SimulatedCrate.insert {} slot b

namespace CrateUpdate

open BoardUpdate

variable {σ ε : Type} {t : σ} {c : SimulatedCrate} {report : Report} {slot : Slot}
  {b : SimulatedBoard}
  {config : UpdateConfig} {force : Bool}

/-- Whether the update leaves the board alone, as it already runs the target firmware. -/
def leavesAlone (config : UpdateConfig) (force : Bool) (b : SimulatedBoard) : Bool :=
  !force && b.versionReads.1.combined == config.target.combined

def lookedAt (force : Bool) (b : SimulatedBoard) : SimulatedBoard :=
  if force then b else b.versionReads.2

/-! ## Who is updated -/

private theorem run_reads {ω : Type} [Bus ω] (address address' : UInt32) (t : σ) (s : ω) :
    (((do
      let control ← Job.ask (.read address)
      let processing ← Job.ask (.read address')
      return ⟨control.toUInt16, processing.toUInt16⟩) : Job σ ε Version) t).run Bus.handler s =
      ((.ok ⟨(Bus.read s address).1.toUInt16,
        (Bus.read (Bus.read s address).2 address').1.toUInt16⟩, t),
        (Bus.read (Bus.read s address).2 address').2) :=
  rfl

theorem run_readVersion (hb : c.board? slot = some b) (t : σ) :
    (((Board.geographic slot).readVersion : Job σ ε Version) t).run Bus.handler c =
      ((.ok b.versionReads.1, t), c.insert slot b.versionReads.2) := by
  have hfits := Slot.fits_geographic slot
  have hcontrol : Register.controlVersion.toNat < slotWindow := by decide
  have hprocessing : Register.processingVersion.toNat < slotWindow := by decide
  have hread : ∀ (b : SimulatedBoard) {offset : UInt32}, offset.toNat < slotWindow →
      Bus.read b ((Board.geographic slot).base + offset) = b.read offset :=
    fun b _ h => congrArg b.read (SimulatedCrate.offset_base_add slot h)
  rw [Board.readVersion, hfits.read_eq (by decide), hfits.read_eq (by decide)]
  have hkeeps : (((do
      let control ← Job.ask (.read ((Board.geographic slot).base + Register.controlVersion))
      let processing ← Job.ask (.read ((Board.geographic slot).base + Register.processingVersion))
      return ⟨control.toUInt16, processing.toUInt16⟩) : Job σ ε Version) t).Keeps
        (Request.InWindow slot) fun _ => True :=
    ⟨Slot.ofAddress?_base_add slot hcontrol, fun _ =>
      ⟨Slot.ofAddress?_base_add slot hprocessing, fun _ => trivial⟩⟩
  rw [SimulatedCrate.run_of_inWindow hkeeps hb, run_reads, hread b hcontrol, hread _ hprocessing]
  rfl

theorem run_isCurrent (target : Version) (hb : c.board? slot = some b) :
    ((isCurrent target (.geographic slot) : Job σ ε Bool) t).run Bus.handler c =
      ((.ok (b.versionReads.1.combined == target.combined), t),
        c.insert slot b.versionReads.2) := by
  rw [isCurrent, Routine.run_bind_ok (run_readVersion hb t)]
  by_cases hcurrent : b.versionReads.1.combined = target.combined
  · rw [if_pos hcurrent, beq_iff_eq.mpr hcurrent]
    rfl
  · rw [if_neg hcurrent, beq_false_of_ne hcurrent]
    rfl

theorem run_enlist_cons (config : UpdateConfig) (force : Bool) (hb : c.board? slot = some b)
    (hnew : report.status? slot = none) (rest : List Board) :
    ∃ c₁ report₁,
      ((enlist config force (.geographic slot :: rest) : Job Report ε _) report).run Bus.handler c =
        ((if leavesAlone config force b then enlist config force rest
          else enlist config force rest >>= fun updates =>
            pure (.new (.geographic slot) config.budgets config.timing :: updates) :
            Job Report ε _) report₁).run Bus.handler c₁ ∧
      c₁.board? slot = some (lookedAt force b) ∧
      report₁.status? slot =
        some (if leavesAlone config force b then .current else .updating) ∧
      Frames [slot] c report c₁ report₁ := by
  have hothers : ∀ other ∉ [slot],
      (c.insert slot (lookedAt force b)).board? other = c.board? other :=
    fun other hmem => SimulatedCrate.board?_insert_of_ne c _ (by simpa using hmem)
  have hadd : ∀ st, (report.add slot st).status? slot = some st := by
    intro st
    rw [Report.status?_add, hnew, if_pos rfl]
    rfl
  have hframe : ∀ st, Frames [slot] c report (c.insert slot (lookedAt force b))
      (report.add slot st) := by
    intro st other hmem
    have hne : other ≠ slot := by simpa using hmem
    rw [Report.status?_add, if_neg hne, Option.or_none]
    exact ⟨hothers other hmem, rfl⟩
  have hself := SimulatedCrate.board?_insert_self c slot (lookedAt force b)
  cases force with
  | true =>
      have hsame : c.insert slot (lookedAt true b) = c := SimulatedCrate.insert_of_board? hb
      refine ⟨_, _, ?_, hself, hadd .updating, hframe .updating⟩
      rw [hsame]
      rfl
  | false =>
      rw [enlist, if_neg Bool.false_ne_true, Routine.run_bind_ok (run_isCurrent _ hb)]
      have hleaves : leavesAlone config false b =
          (b.versionReads.1.combined == config.target.combined) := Bool.true_and _
      rw [hleaves]
      cases b.versionReads.1.combined == config.target.combined with
      | true => exact ⟨_, _, rfl, hself, hadd .current, hframe .current⟩
      | false => exact ⟨_, _, rfl, hself, hadd .updating, hframe .updating⟩

def Enlisted (config : UpdateConfig) (force : Bool) (c' : SimulatedCrate) (report' : Report)
    (strands : List Strand) (slot : Slot) (b : SimulatedBoard) : Prop :=
  if leavesAlone config force b then
    c'.board? slot = some (lookedAt force b) ∧ report'.status? slot = some .current ∧
      slot ∉ strands.map Strand.slot
  else
    ⟨.new (.geographic slot) config.budgets config.timing, lookedAt force b, .updating⟩ ∈ strands

theorem Enlisted.cons {c' : SimulatedCrate} {report' : Report} {strands : List Strand}
    (h : Enlisted config force c' report' strands slot b) {x : Strand} (hne : slot ≠ x.slot) :
    Enlisted config force c' report' (x :: strands) slot b := by
  unfold Enlisted at h ⊢
  by_cases hleaves : leavesAlone config force b = true
  · rw [if_pos hleaves] at h ⊢
    obtain ⟨hboard, hstatus, hnot⟩ := h
    refine ⟨hboard, hstatus, ?_⟩
    rw [List.map_cons]
    exact List.not_mem_cons_of_ne_of_not_mem hne hnot
  · rw [if_neg hleaves] at h ⊢
    exact List.mem_cons_of_mem x h

/-- Enlisting the boards in some slots comes to a strand for each board that is to be updated. -/
structure Enlists (ε : Type) (config : UpdateConfig) (force : Bool) (c : SimulatedCrate)
    (report : Report) (slots : List Slot) (c' : SimulatedCrate) (report' : Report)
    (strands : List Strand) : Prop where
  run_eq : ((enlist config force (slots.map Board.geographic) : Job Report ε _) report).run
    Bus.handler c = ((.ok (strands.map Strand.update), report'), c')
  stands : Stands .init c' report' strands
  slots_subset : strands.map Strand.slot ⊆ slots
  frames : Frames slots c report c' report'
  enlisted : ∀ slot ∈ slots, ∀ b, c.board? slot = some b →
    Enlisted config force c' report' strands slot b

/-- A board before the others: its slot is none of theirs, so what they come to is not affected, nor
is the board by them. -/
theorem Enlists.cons {rest : List Slot} {c₁ c' : SimulatedCrate} {report₁ report' : Report}
    {strands : List Strand} (h : Enlists ε config force c₁ report₁ rest c' report' strands)
    (hfresh : slot ∉ rest) (hb : c.board? slot = some b)
    (hrun : ((enlist config force (.geographic slot :: rest.map Board.geographic) :
        Job Report ε _) report).run Bus.handler c =
      ((if leavesAlone config force b then enlist config force (rest.map Board.geographic)
        else enlist config force (rest.map Board.geographic) >>= fun updates =>
          pure (.new (.geographic slot) config.budgets config.timing :: updates) :
          Job Report ε _) report₁).run Bus.handler c₁)
    (hboard : c₁.board? slot = some (lookedAt force b))
    (hstatus : report₁.status? slot =
      some (if leavesAlone config force b then .current else .updating))
    (hframe : Frames [slot] c report c₁ report₁) :
    ∃ strands', Enlists ε config force c report (slot :: rest) c' report' strands' := by
  have hkept : slot ∉ strands.map Strand.slot := fun hmem => hfresh (h.slots_subset hmem)
  obtain ⟨hboard', hstatus'⟩ := h.frames slot hfresh
  rw [hboard] at hboard'
  rw [hstatus] at hstatus'
  have hrest : ∀ other ∈ rest, ∀ b, c.board? other = some b →
      Enlisted config force c' report' strands other b := by
    intro other hmem b' hb'
    have hne : other ∉ [slot] := fun heq => hfresh (List.mem_singleton.mp heq ▸ hmem)
    exact h.enlisted other hmem b' ((hframe other hne).1.trans hb')
  -- A board that is left alone gets no strand, and otherwise its strand comes first.
  by_cases hleaves : leavesAlone config force b = true
  · rw [if_pos hleaves] at hrun hstatus'
    refine ⟨strands, hrun.trans h.run_eq, h.stands, ?_, hframe.trans h.frames, ?_⟩
    · exact fun other hmem => List.mem_cons_of_mem slot (h.slots_subset hmem)
    · refine List.forall_mem_cons.mpr ⟨fun b' hb' => ?_, hrest⟩
      obtain rfl : b = b' := Option.some.inj (hb.symm.trans hb')
      rw [Enlisted, if_pos hleaves]
      exact ⟨hboard', hstatus', hkept⟩
  · rw [if_neg hleaves] at hrun hstatus'
    let x : Strand :=
      ⟨.new (.geographic slot) config.budgets config.timing, lookedAt force b, .updating⟩
    have hstands := h.stands.cons (x := x) hkept ⟨rfl, .inr rfl⟩ ⟨hboard', hstatus'⟩
    refine ⟨x :: strands, ?_, hstands, ?_, hframe.trans h.frames, ?_⟩
    · rw [List.map_cons, hrun, Routine.run_bind_ok h.run_eq]
      rfl
    · exact List.cons_subset_cons slot h.slots_subset
    · refine List.forall_mem_cons.mpr ⟨fun b' hb' => ?_, fun other hmem b' hb' => ?_⟩
      · obtain rfl : b = b' := Option.some.inj (hb.symm.trans hb')
        rw [Enlisted, if_neg hleaves]
        exact List.mem_cons_self
      · have hne : other ≠ slot := fun heq => hfresh (heq ▸ hmem)
        exact (hrest other hmem b' hb').cons hne

theorem run_enlist (config : UpdateConfig) (force : Bool) {slots : List Slot}
    (hnodup : slots.Nodup) (hboards : ∀ slot ∈ slots, (c.board? slot).isSome = true)
    (hnew : ∀ slot ∈ slots, report.status? slot = none) :
    ∃ c' report' strands, Enlists ε config force c report slots c' report' strands := by
  induction slots generalizing c report with
  | nil =>
      exact ⟨c, report, [], rfl, ⟨by simp, by simp, by simp⟩, by simp, .refl _, by simp⟩
  | cons slot rest ih =>
      obtain ⟨b, hb⟩ := Option.isSome_iff_exists.mp (hboards slot List.mem_cons_self)
      obtain ⟨c₁, report₁, hrun, hboard, hstatus, hframe⟩ := run_enlist_cons
        config force hb (hnew slot List.mem_cons_self) (rest.map Board.geographic)
      obtain ⟨hfresh, hnodup'⟩ := List.nodup_cons.mp hnodup
      have hsame : ∀ other ∈ rest, c₁.board? other = c.board? other ∧
          report₁.status? other = report.status? other := by
        intro other hmem
        exact hframe other fun heq => hfresh (List.mem_singleton.mp heq ▸ hmem)
      have hboards' : ∀ other ∈ rest, (c₁.board? other).isSome = true := by
        intro other hmem
        rw [(hsame other hmem).1]
        exact hboards other (List.mem_cons_of_mem slot hmem)
      have hnew' : ∀ other ∈ rest, report₁.status? other = none := by
        intro other hmem
        rw [(hsame other hmem).2]
        exact hnew other (List.mem_cons_of_mem slot hmem)
      obtain ⟨c', report', strands, henlists⟩ := ih hnodup' hboards' hnew'
      exact ⟨c', report', henlists.cons hfresh hb hrun hboard hstatus hframe⟩

/-! ## The update of a crate -/

/-- A strand that went through all stages is where a whole update takes its board alone. -/
theorem Holds.of_stages {file : Image} {u : BoardUpdate} {st : BoardStatus}
    (hu : u.board = .geographic slot) (hphase : u.phase = .init)
    (hslot : ((stages file).foldl Strand.advance ⟨u, b, st⟩).slot = slot)
    (h : Holds c report ((stages file).foldl Strand.advance ⟨u, b, st⟩)) :
    c.board? slot = some ((BoardUpdate.run file u).run Bus.handler b).2 ∧
      report.status? slot =
        some (st.after ((BoardUpdate.run file u).run Bus.handler b).1.1) := by
  obtain ⟨hboard, hstatus⟩ := h
  rw [hslot, Strand.foldl_advance (course_stages file) hu hphase] at hboard hstatus
  rw [agree_stages (Slot.fits_geographic slot) file u b hu]
  exact ⟨hboard, hstatus⟩

/-- Enlisting and all phases: every board that is registered comes to where it would come alone. -/
theorem run_fill (config : UpdateConfig) (file : Image) (force : Bool) {slots : List Slot}
    (hnodup : slots.Nodup) (hboards : ∀ slot ∈ slots, (c.board? slot).isSome = true) :
    ∃ c' report',
      (fill (slots.map Board.geographic) config file force {}).run Bus.handler c =
        ((.ok report', report'), c') ∧
      Frames slots c {} c' report' ∧
      ∀ slot ∈ slots, ∀ b, c.board? slot = some b →
        if leavesAlone config force b then
          c'.board? slot = some (lookedAt force b) ∧ report'.status? slot = some .current
        else
          let job := BoardUpdate.run file (.new (.geographic slot) config.budgets config.timing)
          let alone := job.run Bus.handler (lookedAt force b)
          c'.board? slot = some alone.2 ∧
            report'.status? slot = some (BoardStatus.updating.after alone.1.1) := by
  have hnew : ∀ slot ∈ slots, ({} : Report).status? slot = none := fun _ _ => rfl
  obtain ⟨c₁, report₁, strands, hrun, hstands, hslots, hframe, henlisted⟩ :=
    run_enlist config force hnodup hboards hnew
  obtain ⟨c', report', hphases, hholds, hframe'⟩ := run_runPhases file hstands
  refine ⟨c', report', ?_, ?_, ?_⟩
  · rw [fill, Routine.run_bind_ok hrun, Routine.run_bind_ok hphases, Routine.run_get_bind,
      Routine.run_lift_bind (Exchange.isSilent_reportAll _)]
    rfl
  · exact (hframe.trans hframe').mono
      (List.append_subset.mpr ⟨List.Subset.refl _, hslots⟩)
  · intro slot hslot b hb
    have hslot' := henlisted slot hslot b hb
    unfold Enlisted at hslot'
    by_cases hleaves : leavesAlone config force b = true
    · rw [if_pos hleaves] at hslot' ⊢
      obtain ⟨hboard, hstatus, hnot⟩ := hslot'
      obtain ⟨hboard', hstatus'⟩ := hframe' slot hnot
      exact ⟨hboard'.trans hboard, hstatus'.trans hstatus⟩
    · rw [if_neg hleaves] at hslot' ⊢
      obtain ⟨hsame, hfinal⟩ := hholds _ hslot'
      exact hfinal.of_stages rfl rfl hsame

theorem run_eq_of_fill {registry : Registry} {file : Image} (hfile : file.isLoaded = true)
    {c' : SimulatedCrate} {report' : Report}
    (h : (fill registry.boards config file force {}).run Bus.handler c =
      ((.ok report, report'), c')) :
    ((run registry config file force : Job σ RomError Report) t).run Bus.handler c =
      ((.ok report, t), c') := by
  have hon : (((fill registry.boards config file force).on {} :
      Job σ RomError (Except RomError Report × Report)) t).run Bus.handler c =
        ((.ok (.ok report, report'), t), c') := by
    rw [Routine.on, Dialogue.run_bind, h]
    rfl
  rw [run, hfile, if_neg (by simp), Routine.run_bind_ok hon]
  rfl

theorem boards_eq_of_isIn {registry : Registry} (h : registry.IsIn c) :
    registry.boards = registry.slots.map Board.geographic := by
  rw [Registry.slots, List.map_map]
  symm
  refine (List.map_congr_left ?_).trans (List.map_id registry.boards)
  intro board hboard
  obtain ⟨hbase, -⟩ := h board.slot board.base (Registry.mem_boards.mp hboard)
  obtain ⟨slot, base⟩ := board
  exact congrArg (Board.mk slot) hbase.symm

theorem run_sole (b : SimulatedBoard) (file : Image) {u : BoardUpdate}
    (hu : u.board = .geographic slot) :
    ((BoardUpdate.run file u).run Bus.handler (SimulatedCrate.sole slot b)).1 =
        ((BoardUpdate.run file u).run Bus.handler b).1 ∧
      ((BoardUpdate.run file u).run Bus.handler (SimulatedCrate.sole slot b)).2.board? slot =
        some ((BoardUpdate.run file u).run Bus.handler b).2 := by
  have hb : (SimulatedCrate.sole slot b).board? slot = some b :=
    SimulatedCrate.board?_insert_self {} slot b
  rw [SimulatedCrate.run_of_owns (keeps_run slot.fits_geographic file u hu) hb]
  exact ⟨rfl, SimulatedCrate.board?_insert_self ..⟩

theorem updating_after_run (file : Image) {u : BoardUpdate} (hu : u.board = .geographic slot)
    (hphase : u.phase = .init) (b : SimulatedBoard) :
    let out := ((BoardUpdate.run file u).run Bus.handler b).1.1
    let st := BoardStatus.updating.after out
    st.skip = false ∧
      (out = .ok () ∧ st.passed = true ∧ st.failedStep = none ∨
        ∃ failure, out = .failed failure ∧ st.passed = false ∧
          st.failedStep = some failure.step) := by
  intro out st
  have hends := Routine.ends_run (BoardUpdate.run file) u b
  obtain ⟨-, ⟨hok, -⟩ | ⟨step, -, cause, hfailed, -⟩⟩ :=
    leads_run (Slot.fits_geographic slot) file hu hphase hends
  · have hout : out = .ok () := hok
    unfold st
    rw [hout]
    exact ⟨rfl, .inl ⟨rfl, rfl, rfl⟩⟩
  · have hout : out = .failed _ := hfailed
    unfold st
    rw [hout]
    exact ⟨rfl, .inr ⟨_, rfl, rfl, rfl⟩⟩

theorem eq_updating_after {out : Outcome StepFailure Unit} {st : BoardStatus}
    (hskip : st.skip = false)
    (h : out = .ok () ∧ st.passed = true ∧ st.failedStep = none ∨
      ∃ failure, out = .failed failure ∧ st.passed = false ∧
        st.failedStep = some failure.step) :
    st = BoardStatus.updating.after out := by
  cases st with
  | mk skip passed failedStep =>
      rcases h with ⟨rfl, hpassed, hstep⟩ | ⟨failure, rfl, hpassed, hstep⟩ <;>
        simp_all [BoardStatus.after, BoardStatus.updating, BoardStatus.failedAt]

/-- The update of a crate is the update of each of its boards alone. Whatever boards there are and
whatever is wrong with them, each registered board that is not skipped ends up exactly as if it had
been updated on a crate of its own, and the report says how that went; a skipped board has only been
looked at, and the others have not been touched. -/
theorem run_isolated (c : SimulatedCrate) (config : UpdateConfig) (file : Image)
    (hfile : file.isLoaded = true) (force : Bool) :
    ∃ registry c₁ report c₂,
      ((Registry.discover Register.boardId isFlashAdc : Job Unit RomError Registry) ()).run
          Bus.handler c = ((.ok registry, ()), c₁) ∧
      ((run registry config file force : Job Unit RomError Report) ()).run Bus.handler c₁ =
          ((.ok report, ()), c₂) ∧
      (∀ slot, registry.base? slot = none →
        c₂.board? slot = c₁.board? slot ∧ report.status? slot = none) ∧
      ∀ slot base, registry.base? slot = some base → ∃ b st,
        c₁.board? slot = some b ∧ report.status? slot = some st ∧
        if leavesAlone config force b then
          c₂.board? slot = some (lookedAt force b) ∧ st = .current
        else
          let job := BoardUpdate.run file (.new (.geographic slot) config.budgets config.timing)
          let alone := job.run Bus.handler (SimulatedCrate.sole slot (lookedAt force b))
          c₂.board? slot = alone.2.board? slot ∧ st.skip = false ∧
            (alone.1.1 = .ok () ∧ st.passed = true ∧ st.failedStep = none ∨
              ∃ failure, alone.1.1 = .failed failure ∧ st.passed = false ∧
                st.failedStep = some failure.step) := by
  have hid : Register.boardId ≤ Register.engineStatus := by decide
  obtain ⟨registry, c₁, hdiscover, hin⟩ :=
    Registry.run_discover hid isFlashAdc () c
  have hmem : ∀ {slot base}, registry.base? slot = some base → slot ∈ registry.slots :=
    fun {slot base} hbase => List.mem_map.mpr ⟨⟨slot, base⟩, Registry.mem_boards.mpr hbase, rfl⟩
  have hboards : ∀ slot ∈ registry.slots, (c₁.board? slot).isSome = true := by
    intro slot hslot
    obtain ⟨board, hboard, rfl⟩ := List.mem_map.mp hslot
    exact (hin _ _ (Registry.mem_boards.mp hboard)).2
  obtain ⟨c₂, report, hfill, hframe, hslots⟩ :=
    run_fill config file force registry.nodup_slots hboards
  rw [← boards_eq_of_isIn hin] at hfill
  refine ⟨registry, c₁, report, c₂, hdiscover, run_eq_of_fill hfile hfill, ?_, ?_⟩
  · intro slot hbase
    apply hframe
    intro hslot
    obtain ⟨board, hboard, rfl⟩ := List.mem_map.mp hslot
    rw [Registry.mem_boards, hbase] at hboard
    cases hboard
  · intro slot base hbase
    obtain ⟨b, hb⟩ := Option.isSome_iff_exists.mp (hboards slot (hmem hbase))
    have hslot := hslots slot (hmem hbase) b hb
    by_cases hleaves : leavesAlone config force b = true
    · rw [if_pos hleaves] at hslot
      refine ⟨b, .current, hb, hslot.2, ?_⟩
      rw [if_pos hleaves]
      exact ⟨hslot.1, rfl⟩
    · rw [if_neg hleaves] at hslot
      obtain ⟨hboard, hstatus⟩ := hslot
      have hnew : (BoardUpdate.new (.geographic slot) config.budgets config.timing).board =
        .geographic slot := rfl
      obtain ⟨hout, hsole⟩ := run_sole (lookedAt force b) file hnew
      refine ⟨b, _, hb, hstatus, ?_⟩
      rw [if_neg hleaves]
      dsimp only
      rw [hout, hsole]
      exact ⟨hboard, updating_after_run file hnew rfl (lookedAt force b)⟩

/-- Boards in the third and the fourth slot; the engine of the first of them is never ready. -/
def halfFaulty : SimulatedCrate :=
  (SimulatedCrate.sole .third { version := ⟨1, 2⟩, faults := { neverReady := true } }).insert .fourth
    { version := ⟨1, 2⟩ }

/-- Once found, the faulty board fails as it does alone, and the other one passes as it does
alone. -/
theorem run_isolated_halfFaulty :
    let config : UpdateConfig := { target := ⟨3, 4⟩ }
    let file := Image.ofWords [7]
    let faulty : SimulatedBoard :=
      { version := ⟨1, 2⟩, faults := { neverReady := true }, activity := { reads := 1 } }
    let healthy : SimulatedBoard := { version := ⟨1, 2⟩, activity := { reads := 1 } }
    let alone (slot : Slot) (b : SimulatedBoard) :=
      (BoardUpdate.run file (.new (.geographic slot) config.budgets config.timing)).run Bus.handler
        (SimulatedCrate.sole slot (lookedAt false b))
    file.isLoaded = true ∧ ∃ registry c₁ report c₂,
      ((Registry.discover Register.boardId isFlashAdc : Job Unit RomError Registry) ()).run
          Bus.handler halfFaulty = ((.ok registry, ()), c₁) ∧
      ((run registry config file false : Job Unit RomError Report) ()).run Bus.handler c₁ =
          ((.ok report, ()), c₂) ∧
      registry.slots = [.third, .fourth] ∧
      (∀ slot, registry.base? slot = none →
        c₂.board? slot = c₁.board? slot ∧ report.status? slot = none) ∧
      (c₁.board? .third = some faulty ∧
        c₂.board? .third = (alone .third faulty).2.board? .third ∧
        (alone .third faulty).1.1 = .failed ⟨.third, .init, .readyTimeout 60⟩ ∧
        report.status? .third = some ⟨false, false, some .init⟩) ∧
      c₁.board? .fourth = some healthy ∧
        c₂.board? .fourth = (alone .fourth healthy).2.board? .fourth ∧
        (alone .fourth healthy).1.1 = .ok () ∧
        report.status? .fourth = some ⟨false, true, none⟩ := by
  intro config file faulty healthy alone
  obtain ⟨registry, c₁, report, c₂, hdiscover, hrun, hothers, hslots⟩ :=
    run_isolated halfFaulty config file rfl false
  have hid : Register.boardId ≤ Register.engineStatus := by decide
  obtain ⟨hfound, hprobed⟩ := Registry.found_of_run_discover hid hdiscover
  have hregistry : registry.slots = [.third, .fourth] := by
    rw [Registry.slots_of_found hfound]
    rfl
  have hfate : ∀ {slot base b out}, registry.base? slot = some base → c₁.board? slot = some b →
      leavesAlone config false b = false → (alone slot b).1.1 = out →
      c₂.board? slot = (alone slot b).2.board? slot ∧
        report.status? slot = some (BoardStatus.updating.after out) := by
    rintro slot base b _ hbase hb hleaves rfl
    obtain ⟨b', st, hb', hst, hfate⟩ := hslots slot base hbase
    obtain rfl := Option.some.inj (hb.symm.trans hb')
    rw [if_neg (by rw [hleaves]; decide)] at hfate
    -- The run of the board alone is not to be evaluated.
    dsimp only [alone] at hfate ⊢
    generalize Dialogue.run _ _ _ = after at hfate ⊢
    rcases hfate with ⟨hboard, hskip, hends⟩
    exact ⟨hboard, hst.trans (congrArg some (eq_updating_after hskip hends))⟩
  refine ⟨rfl, registry, c₁, report, c₂, hdiscover, hrun, hregistry, hothers, ?_, ?_⟩
  · have hbase : registry.base? .third = some Slot.third.base := by
      rw [hfound]
      rfl
    have hthird : c₁.board? .third = some faulty := hprobed .third
    have hfailed : (alone .third faulty).1.1 = .failed ⟨.third, .init, .readyTimeout 60⟩ := by
      decide +kernel
    have hends := hfate hbase hthird (by decide) hfailed
    exact ⟨hthird, hends.1, hfailed, hends.2⟩
  · have hbase : registry.base? .fourth = some Slot.fourth.base := by
      rw [hfound]
      rfl
    have hfourth : c₁.board? .fourth = some healthy := hprobed .fourth
    have hupdatable : healthy.Updatable {} 1 := SimulatedBoard.updatable_of_faultless rfl rfl 1
    have hfile : file.contents? = some [7] := rfl
    have hpasses : (alone .fourth healthy).1.1 = .ok () := by
      have hnew : (BoardUpdate.new (.geographic .fourth) config.budgets config.timing).board =
        .geographic .fourth := rfl
      have hlooked : Alike (lookedAt false healthy) healthy := rfl
      rw [(run_sole (lookedAt false healthy) file hnew).1]
      exact run_ok_of_updatable rfl rfl hfile (by decide) (by decide) (by decide) hlooked hupdatable
    have hends := hfate hbase hfourth (by decide) hpasses
    exact ⟨hfourth, hends.1, hpasses, hends.2⟩

end CrateUpdate
end Reflash
