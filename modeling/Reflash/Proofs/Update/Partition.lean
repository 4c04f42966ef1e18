import Reflash.Proofs.Masks
import Reflash.Proofs.Update.Order
import Reflash.Proofs.Update.Shares
/-!
# The report of a crate's update

A crate's update keeps the failures of its boards twice: each update its own, and the report the
step of each by slot. Both tell the same, whatever drives the bus. Every board of the registry has
one entry, and it was left alone, or passed because its update got to the end, or failed at the step
of the one failure that its update keeps.
-/

namespace Reflash

open BoardUpdate CrateUpdate

def toldOf (slot : Slot) (shares : List Share) : List StepFailure :=
  (shares.filterMap Share.failure?).filter fun failure => failure.slot = slot

theorem toldOf_append (slot : Slot) (shares shares' : List Share) :
    toldOf slot (shares ++ shares') = toldOf slot shares ++ toldOf slot shares' := by
  simp [toldOf]

/-- The share tells what its update keeps, a failure of the update's own slot. -/
structure Share.IsHonest (x : Share) : Prop where
  failure_eq : x.after.failure? = x.failure?
  slot_eq : ∀ failure, x.failure? = some failure → failure.slot = x.slot

theorem toldOf_self {x : Share} (h : x.IsHonest) : toldOf x.slot [x] = x.failure?.toList := by
  cases hfailure : x.failure? with
  | none => simp [toldOf, hfailure]
  | some failure => simp [toldOf, hfailure, h.slot_eq failure hfailure]

theorem toldOf_eq_nil {slot : Slot} {shares : List Share} (h : ∀ x ∈ shares, x.IsHonest)
    (hslot : ∀ x ∈ shares, x.slot ≠ slot) : toldOf slot shares = [] := by
  apply List.filter_eq_nil_iff.mpr
  intro failure hfailure
  rcases List.mem_filterMap.mp hfailure with ⟨x, hx, hsome⟩
  rw [(h x hx).slot_eq failure hsome]
  simpa using hslot x hx

/-! ## What the report holds -/

namespace Report

variable {target : Version}

theorem boards_afterLooks (looks : List Look) (report : Report) :
    (looks.foldl (afterLook target) report).boards = report.boards ++ looks.map fun x =>
      (x.board.slot, if x.isCurrent target then .current else .updating) := by
  induction looks generalizing report with
  | nil => simp
  | cons x rest ih =>
      rw [List.foldl_cons, ih]
      simp [afterLook, add]

theorem slots_afterLooks (looks : List Look) :
    (looks.foldl (afterLook target) {}).slots = (looks.map Look.board).map Board.slot := by
  rw [slots, boards_afterLooks]
  simp [Function.comp_def]

theorem slots_afterShare (report : Report) (x : Share) :
    (report.afterShare x).slots = report.slots := by
  rw [afterShare]
  cases x.failure? with
  | none => rfl
  | some failure => exact report.slots_recordFailure failure

theorem slots_afterShares (shares : List Share) (report : Report) :
    (shares.foldl afterShare report).slots = report.slots := by
  induction shares generalizing report with
  | nil => rfl
  | cons x rest ih => rw [List.foldl_cons, ih, slots_afterShare]

theorem status?_afterShare (report : Report) (x : Share) (slot : Slot) :
    (report.afterShare x).status? slot = (report.status? slot).map fun st =>
      (toldOf slot [x]).foldl (fun st failure => st.failedAt failure.step) st := by
  cases hfailure : x.failure? with
  | none => simp [afterShare, toldOf, hfailure]
  | some failure =>
      rw [afterShare, hfailure, Option.elim_some, status?_recordFailure]
      by_cases hslot : slot = failure.slot
      · simp [toldOf, hfailure, hslot]
      · simp [toldOf, hfailure, hslot, Ne.symm hslot]

/-- The entry of a slot has the failures that were told of it. -/
theorem status?_afterShares (shares : List Share) (report : Report) (slot : Slot) :
    (shares.foldl afterShare report).status? slot = (report.status? slot).map fun st =>
      (toldOf slot shares).foldl (fun st failure => st.failedAt failure.step) st := by
  induction shares generalizing report with
  | nil => simp [toldOf]
  | cons x rest ih =>
      have hsplit : toldOf slot (x :: rest) = toldOf slot [x] ++ toldOf slot rest :=
        toldOf_append slot [x] rest
      rw [List.foldl_cons, ih, status?_afterShare, hsplit, Option.map_map]
      simp [Function.comp_def]

end Report

/-! ## Both records in step -/

namespace CrateUpdate

variable {start next : Phase} {job : UpdateJob Unit} {jobs : List (UpdateJob Unit)}
  {us us' : List BoardUpdate} {shares past : List Share} {phases : List (List Share)} {x : Share}

theorem TakesFrom.isHonest (h : TakesFrom start next x) (hnext : next.failure? = none) :
    x.IsHonest :=
  ⟨h.failure_eq hnext, fun _ => h.slot_eq⟩

theorem Passes.isHonest (hcourse : Course start jobs next) (hnext : next.failure? = none)
    (hfits : AllFit us) (hat : AllAt start us) (h : Passes jobs us phases us') :
    (∀ x ∈ phases.flatten, x.IsHonest) ∧ AllAt next us' := by
  induction hcourse generalizing us phases with
  | nil =>
      cases h
      exact ⟨List.forall_mem_nil _, hat⟩
  | cons hjob hrest ih =>
      cases h with
      | @cons _ _ _ us₁ _ shares later hphase hpasses =>
          rcases hphase.takesFrom hjob hfits hat with ⟨htakes, hat₁⟩
          have hfits₁ : AllFit us₁ := by rwa [AllFit, hphase.boards_eq]
          rcases ih hnext hfits₁ hat₁ hpasses with ⟨hlater, hat'⟩
          refine ⟨?_, hat'⟩
          rw [List.flatten_cons]
          have hshares : ∀ x ∈ shares, x.IsHonest :=
            fun x hx => (htakes x hx).isHonest (hrest.start_eq hnext)
          exact List.forall_mem_append.mpr ⟨hshares, hlater⟩

theorem Went.inOrder (hjob : StaysInOrder job) (hus : ∀ u ∈ us, u.IsInOrder)
    (h : Went job us shares us') :
    (∀ x ∈ shares, x.after.IsInOrder) ∧ ∀ u ∈ us', u.IsInOrder := by
  induction h with
  | nil => exact ⟨List.forall_mem_nil _, List.forall_mem_nil _⟩
  | past hfailed hrest ih =>
      rcases List.forall_mem_cons.mp hus with ⟨hu, hus'⟩
      rcases ih hus' with ⟨hshares, hlater⟩
      exact ⟨hshares, List.forall_mem_cons.mpr ⟨hu, hlater⟩⟩
  | share hlive hends htaken hrest ih =>
      rcases List.forall_mem_cons.mp hus with ⟨hx, hus'⟩
      rcases ih hus' with ⟨hshares, hlater⟩
      have hafter := (hjob.of_ends hx hends).1
      exact ⟨List.forall_mem_cons.mpr ⟨hafter, hshares⟩, List.forall_mem_cons.mpr ⟨hafter, hlater⟩⟩

theorem Passes.inOrder (hjobs : ∀ job ∈ jobs, StaysInOrder job) (hus : ∀ u ∈ us, u.IsInOrder)
    (h : Passes jobs us phases us') : ∀ x ∈ phases.flatten, x.after.IsInOrder := by
  induction h with
  | nil => exact List.forall_mem_nil _
  | cons hphase hrest ih =>
      rcases List.forall_mem_cons.mp hjobs with ⟨hjob, hjobs'⟩
      rcases hphase.inOrder hjob hus with ⟨hshares, hus₁⟩
      rw [List.flatten_cons]
      exact List.forall_mem_append.mpr ⟨hshares, ih hjobs' hus₁⟩

/-- What has been told of the slot of each update is the failure that it keeps. -/
def Told (past : List Share) (us : List BoardUpdate) : Prop :=
  ∀ u ∈ us, toldOf u.slot past = u.failure?.toList

theorem Told.cons {u : BoardUpdate} (hu : toldOf u.slot past = u.failure?.toList)
    (h : Told past us) : Told past (u :: us) := List.forall_mem_cons.mpr ⟨hu, h⟩

theorem Told.append_share (hx : x.IsHonest) (hfresh : x.slot ∉ slotsOf us) (h : Told past us) :
    Told (past ++ [x]) us := by
  intro u hu
  have hne : x.slot ≠ u.slot := fun heq => hfresh (heq ▸ List.mem_map_of_mem hu)
  have hnone : toldOf u.slot [x] = [] :=
    toldOf_eq_nil (List.forall_mem_singleton.mpr hx) (List.forall_mem_singleton.mpr hne)
  rw [toldOf_append, hnone, List.append_nil, h u hu]

theorem Went.slot_mem (h : Went job us shares us') (hx : x ∈ shares) : x.slot ∈ slotsOf us := by
  have hmem : x.before ∈ live us := by
    rw [← h.before_eq]
    exact List.mem_map_of_mem hx
  exact List.mem_map_of_mem (List.mem_of_mem_filter hmem)

theorem Passes.slot_mem (h : Passes jobs us phases us') (hx : x ∈ phases.flatten) :
    x.slot ∈ slotsOf us' := by
  induction h with
  | nil => cases hx
  | cons hphase hrest ih =>
      rcases List.mem_append.mp hx with hx | hx
      · rw [slotsOf_eq, hrest.boards_eq, hphase.boards_eq, ← slotsOf_eq]
        exact hphase.slot_mem hx
      · exact ih hx

theorem Went.told (hhonest : ∀ x ∈ shares, x.IsHonest) (hnodup : (slotsOf us).Nodup)
    (htold : Told past us) (h : Went job us shares us') : Told (past ++ shares) us' := by
  induction h generalizing past with
  | nil => exact List.forall_mem_nil _
  | @past u us us' shares hfailed hrest ih =>
      rcases List.nodup_cons.mp hnodup with ⟨hfresh, hnodup'⟩
      rcases List.forall_mem_cons.mp htold with ⟨hu, htold'⟩
      have hothers : ∀ x ∈ shares, x.slot ≠ u.slot :=
        fun x hx heq => hfresh (heq ▸ hrest.slot_mem hx)
      apply Told.cons _ (ih hhonest hnodup' htold')
      rw [toldOf_append, toldOf_eq_nil hhonest hothers, List.append_nil, hu]
  | @share x us us' shares hlive hends htaken hrest ih =>
      have hfresh : x.slot ∉ slotsOf us := (List.nodup_cons.mp hnodup).1
      rcases List.forall_mem_cons.mp htold with ⟨hx, htold'⟩
      rcases List.forall_mem_cons.mp hhonest with ⟨hfirst, hhonest'⟩
      have hothers : ∀ y ∈ shares, y.slot ≠ x.slot :=
        fun y hy heq => hfresh (heq ▸ hrest.slot_mem hy)
      have hslot : x.after.slot = x.slot := congrArg Board.slot x.board_eq
      have hnone : x.before.failure? = none := by simpa [BoardUpdate.isFailed] using hlive
      -- The first share counts as past for the updates behind it.
      have hpast := Told.append_share hfirst hfresh htold'
      have hlater := ih hhonest' (List.nodup_cons.mp hnodup).2 hpast
      rw [List.append_cons]
      apply Told.cons _ hlater
      rw [hslot, toldOf_append, toldOf_append, toldOf_eq_nil hhonest' hothers, toldOf_self hfirst,
        hfirst.failure_eq]
      rw [hnone] at hx
      simp [hx, Share.slot]

theorem Passes.told (hhonest : ∀ x ∈ phases.flatten, x.IsHonest) (hnodup : (slotsOf us).Nodup)
    (htold : Told past us) (h : Passes jobs us phases us') : Told (past ++ phases.flatten) us' := by
  induction h generalizing past with
  | nil => simpa using htold
  | @cons job jobs us us₁ us' shares later hphase hrest ih =>
      rw [List.flatten_cons] at hhonest ⊢
      rcases List.forall_mem_append.mp hhonest with ⟨hshares, hlater⟩
      have hnodup₁ : (slotsOf us₁).Nodup := by rwa [slotsOf_eq, hphase.boards_eq, ← slotsOf_eq]
      rw [← List.append_assoc]
      exact ih hlater hnodup₁ (hphase.told hshares hnodup htold)

end CrateUpdate

/-! ## Flags that are only cleared -/

theorem BoardStatus.passed_of_failures {st : BoardStatus} (failures : List StepFailure)
    (h : (failures.foldl (fun st failure => st.failedAt failure.step) st).passed = true) :
    st.passed = true := by
  induction failures generalizing st with
  | nil => exact h
  | cons failure rest ih => cases ih h

namespace Report

/-- No entry is lost on the way from one report to the other, and no board passes that did not. -/
def NeverRestores (r r' : Report) : Prop :=
  ∀ slot st, r.status? slot = some st →
    ∃ st', r'.status? slot = some st' ∧ (st'.passed = true → st.passed = true)

theorem NeverRestores.refl (r : Report) : r.NeverRestores r := fun _ st h => ⟨st, h, id⟩

theorem NeverRestores.trans {r r' r'' : Report} (h : r.NeverRestores r')
    (h' : r'.NeverRestores r'') : r.NeverRestores r'' := by
  intro slot st hst
  rcases h slot st hst with ⟨st', hst', hpassed⟩
  rcases h' slot st' hst' with ⟨st'', hst'', hpassed'⟩
  exact ⟨st'', hst'', hpassed ∘ hpassed'⟩

theorem neverRestores_afterLook (target : Version) (r : Report) (x : Look) :
    r.NeverRestores (r.afterLook target x) := by
  intro slot st hst
  refine ⟨st, ?_, id⟩
  rw [afterLook, status?_add, hst, Option.some_or]

theorem neverRestores_afterShare (r : Report) (x : Share) :
    r.NeverRestores (r.afterShare x) := by
  intro slot st hst
  rw [status?_afterShare, hst]
  exact ⟨_, rfl, BoardStatus.passed_of_failures _⟩

end Report

section Scan

variable {α β : Type} {R : β → β → Prop} {f : β → α → β}

theorem pairwise_scanl (hrefl : ∀ b, R b b) (htrans : ∀ {a b c}, R a b → R b c → R a c)
    (hstep : ∀ b x, R b (f b x)) (xs : List α) (b : β) :
    (xs.scanl f b).Pairwise R ∧ ∀ c ∈ xs.scanl f b, R b c ∧ R c (xs.foldl f b) := by
  induction xs generalizing b with
  | nil => simp [hrefl]
  | cons x rest ih =>
      rcases ih (f b x) with ⟨hpairwise, hall⟩
      have hfirst : ∀ c ∈ rest.scanl f (f b x), R b c := fun c hc =>
        htrans (hstep b x) (hall c hc).1
      have hlast : R b (rest.foldl f (f b x)) := by
        have hmem : f b x ∈ rest.scanl f (f b x) := by cases rest <;> simp [List.scanl]
        exact htrans (hstep b x) (hall _ hmem).2
      rw [List.scanl_cons, List.foldl_cons]
      constructor
      · exact List.pairwise_cons.mpr ⟨hfirst, hpairwise⟩
      · exact List.forall_mem_cons.mpr ⟨⟨hrefl b, hlast⟩, fun c hc => ⟨hfirst c hc, (hall c hc).2⟩⟩

end Scan

/-- The reports that a crate's update held on the way through some looks and then some shares, the
first and the last included. -/
def reportsHeld (looks : List Look) (shares : List Share) : List Report :=
  {} :: (looks.map Look.left ++ shares.map Share.left)

/-- The reports that some looks and then some shares add up to, one by one. -/
def reportsOf (target : Version) (looks : List Look) (shares : List Share) : List Report :=
  looks.scanl (Report.afterLook target) {} ++
    (shares.scanl Report.afterShare (looks.foldl (Report.afterLook target) {})).tail

theorem pairwise_reportsOf (target : Version) (looks : List Look) (shares : List Share) :
    (reportsOf target looks shares).Pairwise Report.NeverRestores := by
  rcases pairwise_scanl Report.NeverRestores.refl Report.NeverRestores.trans
    (Report.neverRestores_afterLook target) looks {} with ⟨hlooks, hentered⟩
  rcases pairwise_scanl Report.NeverRestores.refl Report.NeverRestores.trans
    Report.neverRestores_afterShare shares (looks.foldl (Report.afterLook target) {}) with
    ⟨hshares, hlater⟩
  apply List.pairwise_append.mpr
  refine ⟨hlooks, hshares.tail, fun r hr r' hr' => ?_⟩
  exact (hentered r hr).2.trans (hlater r' (List.mem_of_mem_tail hr')).1

/-! ## Counting -/

namespace Report

def passedSlots (r : Report) : List Slot :=
  (r.boards.filter fun entry => entry.2.passed).map Prod.fst

theorem passedMask_eq (r : Report) : r.passedMask = maskOf r.passedSlots := by
  rw [passedMask, maskOf, passedSlots, List.foldl_map, List.foldl_filter]

theorem passedSlots_sublist (r : Report) : r.passedSlots.Sublist r.slots :=
  List.filter_sublist.map Prod.fst

/-- Each board counts once: left alone, failed or passed. -/
theorem counts_eq {r : Report} (h : ∀ entry ∈ r.boards, entry.2.skip = true →
    entry.2.passed = false) : r.skipped + r.failed + r.passedSlots.length = r.size := by
  obtain ⟨boards⟩ := r
  rw [skipped, failed, passedSlots, size, List.length_map, ← List.countP_eq_length_filter]
  dsimp only at h ⊢
  induction boards with
  | nil => rfl
  | cons entry rest ih =>
      rcases entry with ⟨slot, skip, passed, failedStep⟩
      rcases List.forall_mem_cons.mp h with ⟨hfirst, hrest⟩
      have hlater := ih hrest
      simp only [List.countP_cons, List.length_cons, BoardStatus.isFailed] at hlater ⊢
      cases skip <;> cases passed <;> simp at hfirst ⊢ <;> omega

end Report

/-! ## The report and the updates -/

namespace CrateUpdate

theorem phase_eq {us : List BoardUpdate} (hnodup : (slotsOf us).Nodup) {u u' : BoardUpdate}
    (hu : u ∈ us) (hu' : u' ∈ us) {slot : Slot} (hslot : u.slot = slot) (hslot' : u'.slot = slot) :
    u.phase = u'.phase := by
  rw [List.inj_on_of_nodup_map hnodup hu hu' (hslot.trans hslot'.symm)]

/-- What the entry of a slot tells of the update there, if there is one. -/
inductive Entry (us : List BoardUpdate) (slot : Slot) : BoardStatus → Prop
  | current (hslot : slot ∉ slotsOf us) : Entry us slot .current
  | passed {u : BoardUpdate} (hu : u ∈ us) (hslot : u.slot = slot)
      (hphase : u.phase = .rebooted) : Entry us slot .updating
  | failed {u : BoardUpdate} {failure : StepFailure} (hu : u ∈ us) (hslot : u.slot = slot)
      (hphase : u.phase = .failed failure) :
      Entry us slot (BoardStatus.updating.failedAt failure.step)

namespace Entry

variable {us : List BoardUpdate} {slot : Slot} {st : BoardStatus}

theorem shape (h : Entry us slot st) :
    st = ⟨true, false, none⟩ ∨ st = ⟨false, true, none⟩ ∨
      ∃ step, st = ⟨false, false, some step⟩ := by
  cases h with
  | current => exact .inl rfl
  | passed => exact .inr (.inl rfl)
  | @failed u failure => exact .inr (.inr ⟨failure.step, rfl⟩)

theorem skip_iff (h : Entry us slot st) : st.skip = true ↔ slot ∉ slotsOf us := by
  have htaken : ∀ u ∈ us, u.slot = slot → slot ∈ slotsOf us := by
    rintro u hu rfl
    exact List.mem_map_of_mem hu
  cases h with
  | current hslot => exact ⟨fun _ => hslot, fun _ => rfl⟩
  | passed hu hslot => exact ⟨nofun, fun hnot => absurd (htaken _ hu hslot) hnot⟩
  | failed hu hslot => exact ⟨nofun, fun hnot => absurd (htaken _ hu hslot) hnot⟩

theorem passed_iff (hnodup : (slotsOf us).Nodup) (h : Entry us slot st) :
    st.passed = true ↔ ∃ u ∈ us, u.slot = slot ∧ u.phase = .rebooted := by
  cases h with
  | current hslot =>
      refine ⟨nofun, ?_⟩
      rintro ⟨u, hu, rfl, -⟩
      exact absurd (List.mem_map_of_mem hu) hslot
  | passed hu hslot hphase => exact ⟨fun _ => ⟨_, hu, hslot, hphase⟩, fun _ => rfl⟩
  | failed hu hslot hphase =>
      refine ⟨nofun, ?_⟩
      rintro ⟨u', hu', hslot', hphase'⟩
      rw [phase_eq hnodup hu' hu hslot' hslot, hphase] at hphase'
      cases hphase'

theorem failedStep_iff (hnodup : (slotsOf us).Nodup) (h : Entry us slot st) (step : Step) :
    st.failedStep = some step ↔
      ∃ u ∈ us, u.slot = slot ∧ ∃ failure, u.phase = .failed failure ∧ failure.step = step := by
  cases h with
  | current hslot =>
      refine ⟨nofun, ?_⟩
      rintro ⟨u, hu, rfl, -⟩
      exact absurd (List.mem_map_of_mem hu) hslot
  | passed hu hslot hphase =>
      refine ⟨nofun, ?_⟩
      rintro ⟨u', hu', hslot', failure, hphase', -⟩
      rw [phase_eq hnodup hu' hu hslot' hslot, hphase] at hphase'
      cases hphase'
  | @failed u failure hu hslot hphase =>
      constructor
      · intro hstep
        exact ⟨u, hu, hslot, failure, hphase, Option.some.inj hstep⟩
      · rintro ⟨u', hu', hslot', failure', hphase', rfl⟩
        rw [phase_eq hnodup hu' hu hslot' hslot, hphase] at hphase'
        cases hphase'
        rfl

end Entry

namespace Accounts

variable {registry : Registry} {config : UpdateConfig} {file : Image} {force : Bool}
  {looks : List Look} {phases : List (List Share)} {us : List BoardUpdate} {cycles : List Access}
  {report : Report} (h : Accounts registry.boards config file force looks phases us cycles report)
include h

theorem slots_eq : report.slots = registry.slots := by
  rw [h.report_eq, Report.slots_afterShares, Report.slots_afterLooks, h.boards_eq, Registry.slots]

theorem slotsOf_sublist : (slotsOf us).Sublist registry.slots := by
  rw [slotsOf_eq, h.passes.boards_eq, boards_enlisted, Registry.slots, ← h.boards_eq]
  exact (List.filter_sublist.map Look.board).map Board.slot

theorem nodup : (slotsOf us).Nodup := registry.nodup_slots.sublist h.slotsOf_sublist

theorem look_eq {x y : Look} (hx : x ∈ looks) (hy : y ∈ looks)
    (hslot : x.board.slot = y.board.slot) : x = y := by
  have hnodup := registry.nodup_slots
  rw [Registry.slots, ← h.boards_eq, List.map_map] at hnodup
  exact List.inj_on_of_nodup_map hnodup hx hy hslot

theorem isHonest (hfits : ∀ b ∈ registry.boards, b.Fits) :
    (∀ x ∈ phases.flatten, x.IsHonest) ∧ AllAt .rebooted us := by
  have hlooks : ∀ b ∈ looks.map Look.board, b.Fits := by rwa [h.boards_eq]
  exact h.passes.isHonest (course_stages file) rfl (allFit_enlisted hlooks)
    (allAt_enlisted config looks)

theorem told (hfits : ∀ b ∈ registry.boards, b.Fits) : Told phases.flatten us := by
  have hnodup : (slotsOf (enlisted config looks)).Nodup := by
    have hus := h.nodup
    rwa [slotsOf_eq, h.passes.boards_eq, ← slotsOf_eq] at hus
  have hnone : Told [] (enlisted config looks) := by
    intro u hu
    rcases List.mem_map.mp hu with ⟨x, -, rfl⟩
    rfl
  exact h.passes.told (h.isHonest hfits).1 hnodup hnone

/-- The entry of a board comes of the look at it and of the failures told of it. -/
theorem status_eq {x : Look} (hx : x ∈ looks) :
    report.status? x.board.slot =
      some ((toldOf x.board.slot phases.flatten).foldl (fun st failure => st.failedAt failure.step)
        (if x.isCurrent config.target then .current else .updating)) := by
  have hnodup : (looks.foldl (Report.afterLook config.target) {}).slots.Nodup := by
    rw [Report.slots_afterLooks, h.boards_eq]
    exact registry.nodup_slots
  have hmem : (x.board.slot, if x.isCurrent config.target then .current else .updating) ∈
      (looks.foldl (Report.afterLook config.target) {}).boards := by
    rw [Report.boards_afterLooks]
    exact List.mem_map_of_mem hx
  rw [h.report_eq, Report.status?_afterShares, Report.status?_of_mem_boards hnodup hmem]
  rfl

theorem mem_slotsOf {x : Look} (hx : x ∈ looks) :
    x.board.slot ∈ slotsOf us ↔ x.isCurrent config.target = false := by
  rw [slotsOf_eq, h.passes.boards_eq, boards_enlisted, List.map_map, List.mem_map]
  constructor
  · rintro ⟨y, hy, hslot⟩
    rcases List.mem_filter.mp hy with ⟨hmem, hother⟩
    rw [← h.look_eq hmem hx hslot]
    simpa using hother
  · intro hother
    exact ⟨x, List.mem_filter.mpr ⟨hx, by simp [hother]⟩, rfl⟩

theorem toldOf_current (hfits : ∀ b ∈ registry.boards, b.Fits) {slot : Slot}
    (hslot : slot ∉ slotsOf us) : toldOf slot phases.flatten = [] := by
  apply toldOf_eq_nil (h.isHonest hfits).1
  rintro x hx rfl
  exact hslot (h.passes.slot_mem hx)

theorem entry (hfits : ∀ b ∈ registry.boards, b.Fits) {slot : Slot} {st : BoardStatus}
    (hst : report.status? slot = some st) : Entry us slot st := by
  have hmem : slot ∈ (looks.map Look.board).map Board.slot := by
    rw [h.boards_eq, ← Registry.slots, ← h.slots_eq]
    exact Report.mem_slots_of_status? hst
  rw [List.map_map] at hmem
  rcases List.mem_map.mp hmem with ⟨x, hx, rfl⟩
  have hentry := h.status_eq hx
  rw [Function.comp_apply] at hst ⊢
  rw [hst] at hentry
  cases hcurrent : x.isCurrent config.target with
  | true =>
      have hslot : x.board.slot ∉ slotsOf us := by
        rw [h.mem_slotsOf hx, hcurrent]
        simp
      rw [hcurrent, h.toldOf_current hfits hslot] at hentry
      cases hentry
      exact .current hslot
  | false =>
      rcases List.mem_map.mp ((h.mem_slotsOf hx).mpr hcurrent) with ⟨u, hu, hslot⟩
      rw [hcurrent, ← hslot, h.told hfits u hu] at hentry
      rcases (h.isHonest hfits).2 u hu with hfailed | hphase
      · rcases Option.isSome_iff_exists.mp hfailed with ⟨failure, hfailure⟩
        rw [hfailure] at hentry
        cases hentry
        exact .failed hu hslot (Phase.failure?_eq_some_iff.mp hfailure)
      · have hnone : u.failure? = none := by
          rw [BoardUpdate.failure?, hphase]
          rfl
        rw [hnone] at hentry
        cases hentry
        exact .passed hu hslot hphase

theorem reportsHeld_eq :
    reportsHeld looks phases.flatten = reportsOf config.target looks phases.flatten := by
  rcases h.handed_eq with ⟨hlooks, hshares⟩
  rw [reportsOf, hlooks.scanl_eq fun x hx => (h.entered x hx).left_eq,
    hshares.scanl_eq fun _ => h.passes.left_eq]
  rfl

theorem getLast?_reportsHeld : (reportsHeld looks phases.flatten).getLast? = some report := by
  have hlast := h.handed.getLast?_eq
  rw [List.map_append, List.map_map, List.map_map] at hlast
  exact hlast

/-- Nobody failed if and only if no entry is that of a failure. -/
theorem allOk_iff (hfits : ∀ b ∈ registry.boards, b.Fits) :
    report.allOk = true ↔ ∀ u ∈ us, u.isFailed = false := by
  have hnodup : report.slots.Nodup := by
    rw [h.slots_eq]
    exact registry.nodup_slots
  constructor
  · intro hok u hu
    have hslot : u.slot ∈ report.slots := by
      rw [h.slots_eq]
      exact h.slotsOf_sublist.subset (List.mem_map_of_mem hu)
    rcases List.mem_map.mp hslot with ⟨⟨slot, st⟩, hmem, hsame⟩
    obtain rfl : slot = u.slot := hsame
    have hentry := h.entry hfits (Report.status?_of_mem_boards hnodup hmem)
    have hskip : st.skip = false := by
      apply Bool.eq_false_of_not_eq_true
      rw [hentry.skip_iff, not_not]
      exact List.mem_map_of_mem hu
    have hpassed : st.passed = true := by
      simpa [BoardStatus.isFailed, hskip] using Report.not_isFailed_of_allOk hok hmem
    rcases (hentry.passed_iff h.nodup).mp hpassed with ⟨u', hu', hslot', hphase⟩
    rw [phase_eq h.nodup hu' hu hslot' rfl] at hphase
    exact Strand.not_isFailed_of_phase hphase rfl
  · intro hus
    apply Report.allOk_of_status? hnodup
    intro slot st hst
    cases h.entry hfits hst with
    | current => rfl
    | passed => rfl
    | failed hu hslot hphase =>
        have hlive := hus _ hu
        rw [BoardUpdate.isFailed, BoardUpdate.failure?, hphase] at hlive
        cases hlive

end Accounts

/-- On any bus, the report of a crate's update has one entry for each board of the registry, and the
entry tells how the update of the board ended: it was not begun, it got to the end, or it failed at
the step of the one failure that it keeps. The reports held on the way are what the looks and the
shares add up to, one by one, and in them no entry ever passes that did not. No step is asked for
out of order, and the counts and the mask add up. -/
theorem run_report_faithful {σ ω : Type} [Bus ω] {registry : Registry}
    (hfits : ∀ b ∈ registry.boards, b.Fits) (config : UpdateConfig) {file : Image}
    (hfile : file.isLoaded = true) (force : Bool) (t : σ) (w : ω) :
    ∃ looks phases us report w',
      ((run registry config file force : Job σ RomError Report) t).run Bus.handler w =
        ((.ok report, t), w') ∧
      (updateBoards registry.boards config file force {}).run Bus.handler w =
        ((.ok us, report), w') ∧
      Accounts registry.boards config file force looks phases us
        (Exchange.cycles ((run registry config file force : Job σ RomError Report) t) w) report ∧
      report.slots = registry.slots ∧ (slotsOf us).Nodup ∧ slotsOf us ⊆ registry.slots ∧
      (∀ slot st, (slot, st) ∈ report.boards →
        (st = ⟨true, false, none⟩ ∨ st = ⟨false, true, none⟩ ∨
          ∃ step, st = ⟨false, false, some step⟩) ∧
        (st.skip = true ↔ slot ∉ slotsOf us) ∧
        (st.passed = true ↔ ∃ u ∈ us, u.slot = slot ∧ u.phase = .rebooted) ∧
        ∀ step, st.failedStep = some step ↔
          ∃ u ∈ us, u.slot = slot ∧ ∃ failure, u.phase = .failed failure ∧ failure.step = step) ∧
      (∀ u ∈ us, toldOf u.slot phases.flatten = u.failure?.toList) ∧
      reportsHeld looks phases.flatten = reportsOf config.target looks phases.flatten ∧
      (reportsHeld looks phases.flatten).getLast? = some report ∧
      (reportsHeld looks phases.flatten).Pairwise Report.NeverRestores ∧
      (∀ x ∈ phases.flatten, ∀ failure, x.failure? = some failure →
        failure.cause ≠ .outOfSequence) ∧
      report.skipped + report.failed + bitCount report.passedMask = report.size ∧
      report.passedMask &&& registry.mask = report.passedMask ∧
      (report.allOk = true ↔ ∀ u ∈ us, u.isFailed = false) := by
  rcases exists_accounts hfits config hfile force t w with
    ⟨cycles, looks, phases, us, report, w', hrun, hupdate, h⟩
  have hnodup : report.slots.Nodup := by
    rw [h.slots_eq]
    exact registry.nodup_slots
  have hentries : ∀ {slot st}, (slot, st) ∈ report.boards → Entry us slot st :=
    fun hmem => h.entry hfits (Report.status?_of_mem_boards hnodup hmem)
  refine ⟨looks, phases, us, report, w', hrun.run_eq, hupdate.run_eq, ?_, h.slots_eq, h.nodup,
    h.slotsOf_sublist.subset, ?_, h.told hfits, h.reportsHeld_eq, h.getLast?_reportsHeld, ?_, ?_,
    ?_, ?_, h.allOk_iff hfits⟩
  · rwa [hrun.cycles_eq]
  · intro slot st hmem
    have hentry := hentries hmem
    exact ⟨hentry.shape, hentry.skip_iff, hentry.passed_iff h.nodup, hentry.failedStep_iff h.nodup⟩
  · rw [h.reportsHeld_eq]
    exact pairwise_reportsOf _ _ _
  · intro x hx failure hfailure heq
    have hnew : ∀ u ∈ enlisted config looks, u.IsInOrder := by
      intro u hu
      rcases List.mem_map.mp hu with ⟨y, -, rfl⟩
      exact .of_phase rfl rfl
    have hkept := ((h.isHonest hfits).1 x hx).failure_eq.trans hfailure
    have hwork := h.passes.inOrder (staysInOrder_stages file) hnew x hx failure
      (Phase.failure?_eq_some_iff.mp hkept)
    rw [heq] at hwork
    exact hwork
  · have hcounts : ∀ entry ∈ report.boards, entry.2.skip = true → entry.2.passed = false := by
      rintro ⟨slot, st⟩ hmem hskip
      rcases (hentries hmem).shape with rfl | rfl | ⟨step, rfl⟩
      · rfl
      · cases hskip
      · cases hskip
    rw [report.passedMask_eq, bitCount_maskOf (hnodup.sublist report.passedSlots_sublist),
      Report.counts_eq hcounts]
  · rw [report.passedMask_eq]
    apply maskOf_and
    rw [← h.slots_eq]
    exact report.passedSlots_sublist.subset

/-- Of these boards one is left alone, two get to the end, and one fails when it is verified. -/
theorem run_report_faithful_mixed :
    let config : UpdateConfig := { target := ⟨3, 4⟩ }
    let file := Image.ofWords [2]
    let report : Report := ⟨[(.first, .current), (.third, .updating),
      (.fourth, BoardStatus.updating.failedAt .verify), (.fifth, .updating)]⟩
    (∀ b ∈ mixedRegistry.boards, b.Fits) ∧ file.isLoaded = true ∧
      ∃ looks phases us failure,
        (mixedUpdate.run Bus.handler mixedBus).1 = (.ok report, ()) ∧
        Accounts mixedRegistry.boards config file false looks phases us
          (mixedUpdate.cycles mixedBus) report ∧
        report.slots = mixedRegistry.slots ∧ .first ∉ slotsOf us ∧
        (∃ u ∈ us, u.slot = .third ∧ u.phase = .rebooted) ∧
        (∃ u ∈ us, u.slot = .fifth ∧ u.phase = .rebooted) ∧
        (∃ u ∈ us, u.slot = .fourth ∧ u.phase = .failed failure ∧ failure.step = .verify) ∧
        toldOf .fourth phases.flatten = [failure] ∧
        reportsHeld looks phases.flatten = reportsOf config.target looks phases.flatten ∧
        (reportsHeld looks phases.flatten).getLast? = some report ∧
        (reportsHeld looks phases.flatten).Pairwise Report.NeverRestores ∧
        (∀ x ∈ phases.flatten, ∀ failure, x.failure? = some failure →
          failure.cause ≠ .outOfSequence) ∧
        report.skipped = 1 ∧ report.failed = 1 ∧ report.size = 4 ∧
        report.skipped + report.failed + bitCount report.passedMask = report.size ∧
        report.passedMask &&& mixedRegistry.mask = report.passedMask ∧
        (report.allOk = true ↔ ∀ u ∈ us, u.isFailed = false) := by
  intro config file report
  have hboards : mixedRegistry.boards =
      [.geographic .first, .geographic .third, .geographic .fourth, .geographic .fifth] := rfl
  have hfits : ∀ b ∈ mixedRegistry.boards, b.Fits := by
    simp only [hboards, List.forall_mem_cons]
    exact ⟨Slot.fits_geographic _, Slot.fits_geographic _, Slot.fits_geographic _,
      Slot.fits_geographic _, List.forall_mem_nil _⟩
  have hends : (mixedUpdate.run Bus.handler mixedBus).1 = (.ok report, ()) := by decide +kernel
  rcases run_report_faithful hfits config (show file.isLoaded = true from rfl) false () mixedBus
    with ⟨looks, phases, us, report', w', hrun, -, haccounts, hslots, -, -, hentries, htold, hheld,
      hlast, hnever, horder, hcounts, hmask, hok⟩
  have hsame := (congrArg Prod.fst hrun).symm.trans hends
  cases hsame
  have hcurrent := (hentries .first .current (.head _)).2.1
  have hthird := (hentries .third .updating (.tail _ (.head _))).2.2.1
  have hfourth := (hentries .fourth _ (.tail _ (.tail _ (.head _)))).2.2.2 .verify
  have hfifth := (hentries .fifth .updating (.tail _ (.tail _ (.tail _ (.head _))))).2.2.1
  rcases hfourth.mp rfl with ⟨u, hu, hslot, failure, hphase, hstep⟩
  refine ⟨hfits, rfl, looks, phases, us, failure, hends, haccounts, hslots, hcurrent.mp rfl,
    hthird.mp rfl, hfifth.mp rfl, ⟨u, hu, hslot, hphase, hstep⟩, ?_, hheld, hlast, hnever, horder,
    rfl, rfl, rfl, hcounts, hmask, hok⟩
  have hfourth := htold u hu
  rwa [hslot, BoardUpdate.failure?, Phase.failure?_eq_some_iff.mpr hphase] at hfourth

end CrateUpdate
end Reflash
