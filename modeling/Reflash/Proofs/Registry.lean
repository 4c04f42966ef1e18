import Reflash.Proofs.Simulation.Handling
import Reflash.Registry
/-!
# Registries

A registry lists each of its boards once. What a simulated crate is found to hold are the boards
that answer a probe, at the geographic addresses of their slots.
-/

namespace Reflash

namespace Slot

theorem mem_all (slot : Slot) : slot ∈ all := by
  have hone := slot.one_le
  have hcount := slot.le_count
  refine List.mem_filterMap.mpr ⟨slot.number, ?_, ofNat?_number slot⟩
  rw [List.mem_range'_1]
  unfold slotCount
  omega

theorem nodup_all : all.Nodup := by decide

theorem pairwise_all : all.Pairwise fun slot slot' => slot.number < slot'.number := by decide

theorem number_eq_of_ofNat? {n : Nat} {slot : Slot} (h : ofNat? n = some slot) :
    slot.number = n := by
  unfold ofNat? at h
  split at h
  next => cases h; rfl
  next => cases h

theorem check_number (slot : Slot) : check slot.number = .ok slot := by
  rw [check, ofNat?_number]

theorem check_of_not_mem {n : Nat} (h : ¬(1 ≤ n ∧ n ≤ slotCount)) :
    check n = .error (.outOfRange n) := by
  have hnone : ofNat? n = none := dif_neg h
  rw [check, hnone]

end Slot

namespace Registry

variable {r : Registry}

theorem mem_boards {board : Board} : board ∈ r.boards ↔ r.base? board.slot = some board.base := by
  rw [boards, List.mem_filterMap]
  constructor
  · rintro ⟨slot, -, hboard⟩
    obtain ⟨base, hbase, rfl⟩ := Option.map_eq_some_iff.mp hboard
    exact hbase
  · intro hbase
    refine ⟨board.slot, Slot.mem_all board.slot, ?_⟩
    rw [hbase]
    rfl

theorem mem_slots {slot : Slot} : slot ∈ r.slots ↔ ∃ base, r.base? slot = some base := by
  rw [slots, List.mem_map]
  constructor
  · rintro ⟨board, hboard, rfl⟩
    exact ⟨board.base, mem_boards.mp hboard⟩
  · rintro ⟨base, hbase⟩
    exact ⟨⟨slot, base⟩, mem_boards.mpr hbase, rfl⟩

theorem nodup_slots (r : Registry) : r.slots.Nodup := by
  have hslots : r.slots = Slot.all.filter fun slot => (r.base? slot).isSome := by
    rw [slots, boards, List.map_filterMap]
    induction Slot.all with
    | nil => rfl
    | cons slot rest ih =>
        rw [List.filterMap_cons, List.filter_cons]
        cases r.base? slot with
        | none => simpa using ih
        | some base => simpa using ih
  rw [hslots]
  exact Slot.nodup_all.filter _

def restrict (r : Registry) (keep : Slot → Bool) : Registry :=
  ⟨fun s => if keep s then r.base? s else none⟩

theorem base?_restrict (r : Registry) (keep : Slot → Bool) (slot : Slot) :
    (r.restrict keep).base? slot = if keep slot = true then r.base? slot else none := rfl

theorem mem_boards_of_restrict {keep : Slot → Bool} {board : Board}
    (h : board ∈ (r.restrict keep).boards) : board ∈ r.boards := by
  rw [mem_boards, base?_restrict] at h
  split at h
  next => exact mem_boards.mpr h
  next => cases h

theorem isEmpty_eq_false {slot : Slot} {base : UInt32} (h : r.base? slot = some base) :
    r.isEmpty = false := by
  rw [isEmpty, List.isEmpty_eq_false_iff]
  have hboard : Board.mk slot base ∈ r.boards := mem_boards.mpr h
  exact List.ne_nil_of_mem hboard

theorem resolve_number {slot : Slot} {base : UInt32} (h : r.base? slot = some base) :
    r.resolve slot.number = .ok ⟨slot, base⟩ := by
  have hnumber : slot.number ≠ 0 := Nat.ne_of_gt slot.one_le
  rw [resolve, if_neg hnumber, Slot.check_number]
  dsimp only [bind, Except.bind]
  rw [h]

theorem resolve_number_of_vacant {slot : Slot} (h : r.base? slot = none) :
    r.resolve slot.number = .error (.vacant slot) := by
  have hnumber : slot.number ≠ 0 := Nat.ne_of_gt slot.one_le
  rw [resolve, if_neg hnumber, Slot.check_number]
  dsimp only [bind, Except.bind]
  rw [h]

theorem base?_insert (r : Registry) (slot other : Slot) (base : UInt32) :
    (r.insert slot base).base? other = if other = slot then some base else r.base? other := rfl

theorem foldlM_resolve {slots : List Slot} (hslots : ∀ slot ∈ slots, slot ∈ r.slots)
    (kept : Registry) :
    slots.foldlM (fun kept slot => do
        let board ← r.resolve slot.number
        return kept.insert slot board.base) kept =
      .ok ⟨fun slot => if slot ∈ slots then r.base? slot else kept.base? slot⟩ := by
  induction slots generalizing kept with
  | nil => simp [pure, Except.pure]
  | cons slot rest ih =>
      obtain ⟨hslot, hrest⟩ := List.forall_mem_cons.mp hslots
      obtain ⟨base, hbase⟩ := mem_slots.mp hslot
      rw [List.foldlM_cons, resolve_number hbase]
      refine (ih hrest (kept.insert slot base)).trans ?_
      congr 2
      funext other
      rw [base?_insert]
      by_cases hother : other = slot
      · simp [hother, hbase]
      · simp [hother]

/-- Keeping some boards never fails, since only registered slots are looked up. -/
theorem select_eq (r : Registry) (keep : Slot → Bool) : r.select keep = .ok (r.restrict keep) := by
  rw [select, foldlM_resolve fun slot hslot => (List.mem_filter.mp hslot).1]
  congr 2
  funext slot
  by_cases hkeep : keep slot = true
  · cases hbase : r.base? slot with
    | none => simp [empty]
    | some base => simp [mem_slots, hkeep, hbase]
  · simp [hkeep, empty]

theorem base?_of_resolve {n : Nat} (hn : n ≠ 0) {board : Board} (h : r.resolve n = .ok board) :
    board.slot.number = n ∧ r.base? board.slot = some board.base := by
  cases hslot : Slot.ofNat? n with
  | none =>
      rw [resolve, if_neg hn, Slot.check, hslot] at h
      cases h
  | some slot =>
      obtain rfl := Slot.number_eq_of_ofNat? hslot
      cases hbase : r.base? slot with
      | none =>
          rw [resolve_number_of_vacant hbase] at h
          cases h
      | some base =>
          rw [resolve_number hbase] at h
          cases h
          exact ⟨rfl, hbase⟩

theorem pairwise_boards (r : Registry) :
    r.boards.Pairwise fun b b' => b.slot.number < b'.slot.number := by
  refine Slot.pairwise_all.filterMap _ fun slot slot' hlt b hb b' hb' => ?_
  obtain ⟨_, -, rfl⟩ := Option.map_eq_some_iff.mp hb
  obtain ⟨_, -, rfl⟩ := Option.map_eq_some_iff.mp hb'
  exact hlt

theorem number_le_of_boards {board : Board} {rest : List Board} (h : r.boards = board :: rest)
    {other : Slot} {base : UInt32} (hother : r.base? other = some base) :
    board.slot.number ≤ other.number := by
  have hboards := r.pairwise_boards
  have hmem : Board.mk other base ∈ r.boards := mem_boards.mpr hother
  rw [h] at hboards hmem
  rcases List.mem_cons.mp hmem with heq | hrest
  · subst heq
    exact Nat.le_refl _
  · exact Nat.le_of_lt ((List.pairwise_cons.mp hboards).1 _ hrest)

theorem base?_of_resolve_zero {board : Board} (h : r.resolve 0 = .ok board) :
    r.base? board.slot = some board.base ∧
      ∀ other base, r.base? other = some base → board.slot.number ≤ other.number := by
  rw [resolve, if_pos rfl] at h
  cases hboards : r.boards with
  | nil =>
      rw [hboards] at h
      cases h
  | cons first rest =>
      rw [hboards] at h
      cases h
      refine ⟨?_, fun other base hother => number_le_of_boards hboards hother⟩
      rw [← mem_boards, hboards]
      exact List.mem_cons_self

theorem resolve_zero {slot : Slot} {base : UInt32} (h : r.base? slot = some base)
    (hlowest : ∀ other base', r.base? other = some base' → slot.number ≤ other.number) :
    r.resolve 0 = .ok ⟨slot, base⟩ := by
  rw [resolve, if_pos rfl]
  cases hboards : r.boards with
  | nil =>
      have hmem : Board.mk slot base ∈ r.boards := mem_boards.mpr h
      rw [hboards] at hmem
      cases hmem
  | cons first rest =>
      have hfirst : r.base? first.slot = some first.base := by
        rw [← mem_boards, hboards]
        exact List.mem_cons_self
      have hslot : first.slot = slot := Slot.number_inj
        (Nat.le_antisymm (number_le_of_boards hboards h) (hlowest _ _ hfirst))
      rw [hslot, h] at hfirst
      obtain ⟨_, _⟩ := first
      cases hslot
      cases hfirst
      rfl

theorem mem_boards_of_resolve {n : Nat} {board : Board} (h : r.resolve n = .ok board) :
    board ∈ r.boards := by
  by_cases hn : n = 0
  · subst hn
    exact mem_boards.mpr (base?_of_resolve_zero h).1
  · exact mem_boards.mpr (base?_of_resolve hn h).2

def IsGeographic (r : Registry) : Prop := ∀ board ∈ r.boards, board = .geographic board.slot

instance (r : Registry) : Decidable r.IsGeographic :=
  inferInstanceAs (Decidable (∀ board ∈ r.boards, _))

theorem IsGeographic.fits (h : r.IsGeographic) {board : Board} (hboard : board ∈ r.boards) :
    board.Fits := by
  rw [h board hboard]
  exact Slot.fits_geographic _

end Registry

/-! ## Discovery on a simulated crate -/

namespace SimulatedCrate

variable {σ ε : Type} {offset : UInt32}

theorem run_probe (slot : Slot) (hoffset : offset ≤ Register.engineStatus) (t : σ)
    (c : SimulatedCrate) :
    (((Board.geographic slot).probe offset : Job σ ε (Option UInt32)) t).run Bus.handler c =
      ((.ok ((c.board? slot).bind fun b => (b.probed offset).1), t),
        c.modify slot fun b => (b.probed offset).2) := by
  have hwindow : Slot.ofAddress? ((Board.geographic slot).base + offset) = some slot :=
    slot.ofAddress?_register hoffset
  have hprobe : ((Board.geographic slot).probe offset : Job σ ε (Option UInt32)) = (do
      if ← Job.ask (.probe ((Board.geographic slot).base + offset)) then
        return some (← Job.ask (.read ((Board.geographic slot).base + offset)))
      else
        return none) := by
    rw [Board.probe, slot.fits_geographic.address_eq hoffset, pure_bind]
  cases hb : c.board? slot with
  | some b =>
      have hkeeps : ((Board.geographic slot).probe offset : Job σ ε (Option UInt32)).Keeps
          (Request.InWindow slot) fun _ => True := by
        rw [hprobe]
        refine .bind (.request hwindow) fun answered => .ite ?_ (.pure none)
        exact .bind (.request hwindow) fun value => .pure (some value)
      rw [run_of_inWindow (hkeeps t trivial) hb, Board.run_probe hoffset, modify_of_board? hb]
      rfl
  | none =>
      have hanswer : c.probe ((Board.geographic slot).base + offset) = (false, c) := by
        rw [SimulatedCrate.probe, decode?, hwindow]
        simp [hb]
      rw [hprobe, modify_of_vacant hb]
      generalize (Board.geographic slot).base + offset = address at hanswer
      have hask : ((Job.ask (.probe address) : Job σ ε Bool) t).run Bus.handler c =
          ((.ok false, t), c) := by
        rw [Job.run_probe]
        exact congrArg (fun p : Bool × SimulatedCrate => ((Outcome.ok p.1, t), p.2)) hanswer
      rw [Routine.run_bind_ok hask]
      rfl

def isFound (c : SimulatedCrate) (offset : UInt32) (accept : UInt32 → Bool) (slot : Slot) : Bool :=
  ((c.board? slot).bind fun b => (b.probed offset).1).any accept

theorem isSome_of_isFound {c : SimulatedCrate} {accept : UInt32 → Bool} {slot : Slot}
    (h : c.isFound offset accept slot = true) : (c.board? slot).isSome = true := by
  unfold isFound at h
  cases hb : c.board? slot with
  | some b => rfl
  | none =>
      rw [hb] at h
      cases h

theorem isFound_boardId {c : SimulatedCrate} {slot : Slot} {b : SimulatedBoard}
    (hb : c.board? slot = some b) :
    c.isFound Register.boardId isFlashAdc slot = decide (b.rebooting = 0) := by
  have haccept : isFlashAdc SimulatedBoard.boardId = true := by decide
  rw [isFound, hb, Option.bind_some, SimulatedBoard.probed]
  by_cases hback : b.rebooting = 0
  · rw [if_pos hback, b.read_boardId, decide_eq_true hback]
    exact haccept
  · rw [if_neg hback, decide_eq_false hback]
    rfl

theorem exists_of_isFound_boardId {c : SimulatedCrate} {slot : Slot}
    (h : c.isFound Register.boardId isFlashAdc slot = true) :
    ∃ b, c.board? slot = some b ∧ b.rebooting = 0 := by
  obtain ⟨b, hb⟩ := Option.isSome_iff_exists.mp (isSome_of_isFound h)
  rw [isFound_boardId hb] at h
  exact ⟨b, hb, of_decide_eq_true h⟩

end SimulatedCrate

namespace Registry

variable {σ ε : Type} {c c₁ : SimulatedCrate} {found : Registry} {slot : Slot} {slots : List Slot}
  {offset : UInt32} {accept : UInt32 → Bool}

def withFound (found : Registry) (c : SimulatedCrate) (offset : UInt32) (accept : UInt32 → Bool)
    (slots : List Slot) : Registry :=
  ⟨fun slot =>
    if slot ∈ slots ∧ c.isFound offset accept slot = true then some slot.base
    else found.base? slot⟩

theorem withFound_nil : found.withFound c offset accept [] = found := by
  unfold withFound
  simp only [List.not_mem_nil, false_and, if_false]

/-- The other slots are searched on a crate that may have changed in the first slot. -/
theorem withFound_cons (hfresh : slot ∉ slots)
    (hkept : ∀ other, other ≠ slot → c₁.board? other = c.board? other) :
    (if c.isFound offset accept slot = true then found.insert slot slot.base
      else found).withFound c₁ offset accept slots =
        found.withFound c offset accept (slot :: slots) := by
  unfold withFound
  congr 1
  funext other
  by_cases hother : other = slot
  · subst hother
    rw [if_neg fun h => hfresh h.1]
    by_cases hfound : c.isFound offset accept other = true
    · rw [if_pos hfound, if_pos ⟨List.mem_cons_self, hfound⟩, base?_insert, if_pos rfl]
    · rw [if_neg hfound, if_neg fun h => hfound h.2]
  · have hsame : c₁.isFound offset accept other = c.isFound offset accept other := by
      rw [SimulatedCrate.isFound, hkept other hother, SimulatedCrate.isFound]
    have hbase : (if c.isFound offset accept slot = true then found.insert slot slot.base
        else found).base? other = found.base? other := by
      split
      · rw [base?_insert, if_neg hother]
      · rfl
    simp only [hsame, hbase, List.mem_cons, hother, false_or]

theorem run_discoverIn_cons (hoffset : offset ≤ Register.engineStatus) (slot : Slot)
    (rest : List Slot) (found : Registry) (t : σ) (c : SimulatedCrate) :
    ((discoverIn offset accept (slot :: rest) found : Job σ ε Registry) t).run Bus.handler c =
      ((discoverIn offset accept rest
        (if c.isFound offset accept slot = true then found.insert slot slot.base
        else found) : Job σ ε Registry) t).run Bus.handler
          (c.modify slot fun b => (b.probed offset).2) := by
  rw [discoverIn, Routine.run_bind_ok (SimulatedCrate.run_probe slot hoffset t c),
    SimulatedCrate.isFound]
  cases (c.board? slot).bind fun b => (b.probed offset).1 with
  | none => rfl
  | some id =>
      dsimp only [Option.any_some]
      by_cases haccept : accept id = true
      · rw [if_pos haccept, if_pos haccept]
        rfl
      · rw [if_neg haccept, if_neg haccept]
        rfl

theorem run_discoverIn (hoffset : offset ≤ Register.engineStatus) (hnodup : slots.Nodup)
    (found : Registry) (t : σ) (c : SimulatedCrate) :
    ∃ c',
      ((discoverIn offset accept slots found : Job σ ε Registry) t).run Bus.handler c =
        ((.ok (found.withFound c offset accept slots), t), c') ∧
      ∀ slot, c'.board? slot =
        if slot ∈ slots then (c.board? slot).map fun b => (b.probed offset).2
        else c.board? slot := by
  induction slots generalizing found c with
  | nil =>
      refine ⟨c, ?_, fun slot => (if_neg List.not_mem_nil).symm⟩
      rw [withFound_nil]
      rfl
  | cons slot rest ih =>
      obtain ⟨hfresh, hnodup'⟩ := List.nodup_cons.mp hnodup
      let c₁ := c.modify slot fun b => (b.probed offset).2
      have hkept : ∀ other, other ≠ slot → c₁.board? other = c.board? other := by
        intro other hne
        rw [SimulatedCrate.board?_modify, if_neg hne]
      obtain ⟨c', hrun, hboards⟩ := ih hnodup'
        (if c.isFound offset accept slot = true then found.insert slot slot.base else found) c₁
      refine ⟨c', ?_, fun other => ?_⟩
      · rw [run_discoverIn_cons hoffset, hrun, withFound_cons hfresh hkept]
      · rw [hboards]
        by_cases hother : other = slot
        · subst hother
          rw [if_neg hfresh, if_pos List.mem_cons_self, SimulatedCrate.board?_modify, if_pos rfl]
        · simp only [hkept other hother, List.mem_cons, hother, false_or]

/-- Discovery on a simulated crate finds every board that answers and is accepted. Each board of the
crate has then been probed once. -/
theorem run_discover_eq (hoffset : offset ≤ Register.engineStatus) (accept : UInt32 → Bool) (t : σ)
    (c : SimulatedCrate) :
    ∃ r c',
      ((discover offset accept : Job σ ε Registry) t).run Bus.handler c = ((.ok r, t), c') ∧
      (∀ slot, r.base? slot =
        if c.isFound offset accept slot = true then some slot.base else none) ∧
      ∀ slot, c'.board? slot = (c.board? slot).map fun b => (b.probed offset).2 := by
  obtain ⟨c', hrun, hboards⟩ := run_discoverIn hoffset Slot.nodup_all empty t c
  refine ⟨_, c', hrun, fun slot => ?_, fun slot => ?_⟩
  · show (if slot ∈ Slot.all ∧ c.isFound offset accept slot = true then some slot.base
      else none) = _
    simp only [slot.mem_all, true_and]
  · rw [hboards, if_pos slot.mem_all]

theorem found_of_run_discover {accept : UInt32 → Bool} {t : σ} {r : Registry}
    (hoffset : offset ≤ Register.engineStatus)
    (h : ((discover offset accept : Job σ ε Registry) t).run Bus.handler c = ((.ok r, t), c₁)) :
    (∀ slot, r.base? slot =
      if c.isFound offset accept slot = true then some slot.base else none) ∧
      ∀ slot, c₁.board? slot = (c.board? slot).map fun b => (b.probed offset).2 := by
  obtain ⟨r', c', hrun, hfound, hboards⟩ :=
    run_discover_eq (σ := σ) (ε := ε) hoffset accept t c
  rw [hrun] at h
  cases h
  exact ⟨hfound, hboards⟩

def IsIn (r : Registry) (c : SimulatedCrate) : Prop :=
  ∀ slot base, r.base? slot = some base → base = slot.base ∧ (c.board? slot).isSome = true

theorem mem_slots_iff_isFound {r : Registry}
    (hfound : ∀ slot, r.base? slot =
      if c.isFound offset accept slot = true then some slot.base else none) :
    slot ∈ r.slots ↔ c.isFound offset accept slot = true := by
  rw [mem_slots, hfound]
  split
  next hslot => exact iff_of_true ⟨_, rfl⟩ hslot
  next hslot => exact iff_of_false nofun hslot

theorem slots_of_found {r : Registry}
    (hfound : ∀ slot, r.base? slot =
      if c.isFound offset accept slot = true then some slot.base else none) :
    r.slots = Slot.all.filter (c.isFound offset accept) := by
  have hguard : (fun slot => ((r.base? slot).map (Board.mk slot)).map Board.slot) =
      Option.guard (c.isFound offset accept) := by
    funext slot
    rw [hfound, Option.guard]
    split <;> rfl
  rw [slots, boards, List.map_filterMap, hguard, List.filterMap_eq_filter]

theorem isIn_of_found {r : Registry}
    (hfound : ∀ slot, r.base? slot =
      if c.isFound offset accept slot = true then some slot.base else none)
    (hboards : ∀ slot, (c₁.board? slot).isSome = (c.board? slot).isSome) : r.IsIn c₁ := by
  intro slot base hbase
  rw [hfound] at hbase
  split at hbase
  next hslot =>
    rw [hboards]
    exact ⟨(Option.some.inj hbase).symm, SimulatedCrate.isSome_of_isFound hslot⟩
  next => cases hbase

theorem run_discover {idOffset : UInt32} (hoffset : idOffset ≤ Register.engineStatus)
    (accept : UInt32 → Bool) (t : σ) (c : SimulatedCrate) :
    ∃ r c', ((discover idOffset accept : Job σ ε Registry) t).run Bus.handler c =
        ((.ok r, t), c') ∧ r.IsIn c' := by
  obtain ⟨r, c', hrun, hfound, hboards⟩ := run_discover_eq hoffset accept t c
  refine ⟨r, c', hrun, isIn_of_found hfound fun slot => ?_⟩
  rw [hboards, Option.isSome_map]

end Registry
end Reflash
