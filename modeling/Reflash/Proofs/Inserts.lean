import Mathlib.Data.List.Induction
import Reflash.Proofs.Registry
/-!
# Registries built by inserts

Every registry is built by inserting boards, in any order and over one another. What it then holds
of a slot is the base of the last insert there, and slot numbers are resolved by that.
-/

namespace Reflash.Registry

variable {inserts : List (Slot × UInt32)} {slot : Slot} {base : UInt32}

def ofInserts (inserts : List (Slot × UInt32)) : Registry :=
  inserts.foldl (fun r p => r.insert p.1 p.2) empty

def LastInsert (inserts : List (Slot × UInt32)) (slot : Slot) (base : UInt32) : Prop :=
  ∃ before after, inserts = before ++ (slot, base) :: after ∧ slot ∉ after.map Prod.fst

theorem lastInsert_append_singleton {last : Slot × UInt32} :
    LastInsert (inserts ++ [last]) slot base ↔
      if slot = last.1 then base = last.2 else LastInsert inserts slot base := by
  split
  next hslot =>
    constructor
    · rintro ⟨before, after, heq, hafter⟩
      obtain rfl | ⟨after, final, rfl⟩ := after.eq_nil_or_concat
      · obtain ⟨-, hlast⟩ := List.append_inj' heq rfl
        exact (congrArg Prod.snd (List.cons.inj hlast).1).symm
      · rw [List.concat_eq_append, ← List.cons_append, ← List.append_assoc] at heq
        obtain ⟨-, hlast⟩ := List.append_inj' heq rfl
        refine absurd ?_ hafter
        rw [hslot, (List.cons.inj hlast).1]
        simp
    · rintro rfl
      exact ⟨inserts, [], by rw [hslot], List.not_mem_nil⟩
  next hslot =>
    constructor
    · rintro ⟨before, after, heq, hafter⟩
      obtain rfl | ⟨after, final, rfl⟩ := after.eq_nil_or_concat
      · obtain ⟨-, hlast⟩ := List.append_inj' heq rfl
        exact absurd (congrArg Prod.fst (List.cons.inj hlast).1).symm hslot
      · rw [List.concat_eq_append, ← List.cons_append, ← List.append_assoc] at heq
        obtain ⟨hinserts, -⟩ := List.append_inj' heq rfl
        refine ⟨before, after, hinserts, fun hmem => hafter ?_⟩
        rw [List.concat_eq_append, List.map_append]
        exact List.mem_append_left _ hmem
    · rintro ⟨before, after, rfl, hafter⟩
      refine ⟨before, after ++ [last], by simp, ?_⟩
      rw [List.map_append, List.mem_append, not_or]
      exact ⟨hafter, by simpa using hslot⟩

theorem base?_ofInserts :
    (ofInserts inserts).base? slot = some base ↔ LastInsert inserts slot base := by
  induction inserts using List.reverseRecOn with
  | nil =>
      refine iff_of_false nofun ?_
      rintro ⟨before, after, heq, -⟩
      exact List.append_ne_nil_of_right_ne_nil before (List.cons_ne_nil _ after) heq.symm
  | append_singleton inserts last ih =>
      have hinsert : ofInserts (inserts ++ [last]) = (ofInserts inserts).insert last.1 last.2 :=
        List.foldl_append
      rw [lastInsert_append_singleton, hinsert, base?_insert]
      split
      · rw [Option.some.injEq, eq_comm]
      · exact ih

theorem LastInsert.mem (h : LastInsert inserts slot base) : (slot, base) ∈ inserts := by
  obtain ⟨before, after, rfl, -⟩ := h
  simp

theorem exists_lastInsert (h : slot ∈ inserts.map Prod.fst) :
    ∃ base, LastInsert inserts slot base := by
  induction inserts using List.reverseRecOn with
  | nil => cases h
  | append_singleton inserts last ih =>
      by_cases hslot : slot = last.1
      · exact ⟨last.2, lastInsert_append_singleton.mpr (by rw [if_pos hslot])⟩
      · have hearlier : slot ∈ inserts.map Prod.fst := by simpa [hslot] using h
        obtain ⟨base, hbase⟩ := ih hearlier
        exact ⟨base, lastInsert_append_singleton.mpr (by rwa [if_neg hslot])⟩

theorem mem_slots_ofInserts : slot ∈ (ofInserts inserts).slots ↔ slot ∈ inserts.map Prod.fst := by
  rw [mem_slots]
  simp only [base?_ofInserts]
  exact ⟨fun ⟨_, h⟩ => List.mem_map_of_mem h.mem, exists_lastInsert⟩

theorem resolve_ofInserts (h : LastInsert inserts slot base) :
    (ofInserts inserts).resolve slot.number = .ok ⟨slot, base⟩ :=
  resolve_number (base?_ofInserts.mpr h)

theorem resolve_ofInserts_of_not_mem (h : slot ∉ inserts.map Prod.fst) :
    (ofInserts inserts).resolve slot.number = .error (.vacant slot) := by
  refine resolve_number_of_vacant (Option.eq_none_iff_forall_ne_some.mpr fun base hbase => h ?_)
  exact List.mem_map_of_mem (base?_ofInserts.mp hbase).mem

/-- Zero stands for the lowest slot that something was inserted in. -/
theorem resolve_zero_ofInserts (h : LastInsert inserts slot base)
    (hlowest : ∀ p ∈ inserts, slot.number ≤ p.1.number) :
    (ofInserts inserts).resolve 0 = .ok ⟨slot, base⟩ :=
  resolve_zero (base?_ofInserts.mpr h) fun _ _ hother =>
    hlowest _ (base?_ofInserts.mp hother).mem

theorem resolve_of_gt (r : Registry) {n : Nat} (h : slotCount < n) :
    r.resolve n = .error (.outOfRange n) := by
  have hzero : n ≠ 0 := Nat.ne_zero_of_lt h
  rw [resolve, if_neg hzero, Slot.check_of_not_mem fun hn => Nat.not_le_of_lt h hn.2]
  rfl

end Reflash.Registry
