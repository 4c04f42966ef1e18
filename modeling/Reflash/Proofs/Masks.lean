import Mathlib.Data.List.Perm.Lattice
import Mathlib.Data.Nat.Bitwise
import Reflash.Proofs.Registry
/-!
# Masks of slots

A set of slots as a word with one bit for each. The bits say which slots are in the set, and
distinct slots have as many bits as there are slots.
-/

namespace Reflash

def maskOf (slots : List Slot) : UInt32 := slots.foldl (fun m slot => m ||| slot.mask) 0

def bitCount (mask : UInt32) : Nat := (List.range 32).countP mask.toNat.testBit

theorem Slot.toNat_mask (slot : Slot) : slot.mask.toNat = 2 ^ slot.number := by
  have hcount := slot.le_count
  have hnumber : slot.number.toUInt32.toNat % 32 = slot.number := by
    rw [Nat.toUInt32, UInt32.toNat_ofNat']
    omega
  have hpow : 2 ^ slot.number < 2 ^ 32 := Nat.pow_lt_pow_right (by decide) (by omega)
  rw [mask, UInt32.toNat_shiftLeft, hnumber, Nat.shiftLeft_eq, UInt32.toNat_one, Nat.one_mul]
  exact Nat.mod_eq_of_lt hpow

theorem Slot.testBit_mask (slot : Slot) (i : Nat) :
    slot.mask.toNat.testBit i = decide (slot.number = i) := by
  rw [slot.toNat_mask, Nat.testBit_two_pow]

theorem testBit_foldl_mask (slots : List Slot) (mask : UInt32) (i : Nat) :
    (slots.foldl (fun m slot => m ||| slot.mask) mask).toNat.testBit i =
      (mask.toNat.testBit i || decide (∃ slot ∈ slots, slot.number = i)) := by
  induction slots generalizing mask with
  | nil => simp
  | cons slot rest ih =>
      rw [List.foldl_cons, ih, UInt32.toNat_or, Nat.testBit_or, slot.testBit_mask]
      simp [Bool.or_assoc]

theorem testBit_maskOf {slots : List Slot} {i : Nat} :
    (maskOf slots).toNat.testBit i = true ↔ ∃ slot ∈ slots, slot.number = i := by
  rw [maskOf, testBit_foldl_mask]
  simp

theorem maskOf_and {slots slots' : List Slot} (h : slots ⊆ slots') :
    maskOf slots &&& maskOf slots' = maskOf slots := by
  apply UInt32.toNat_inj.mp
  apply Nat.eq_of_testBit_eq
  intro i
  rw [UInt32.toNat_and, Nat.testBit_and, Bool.eq_iff_iff, Bool.and_eq_true, testBit_maskOf,
    testBit_maskOf]
  constructor
  · exact fun hboth => hboth.1
  · rintro ⟨slot, hslot, rfl⟩
    exact ⟨⟨slot, hslot, rfl⟩, slot, h hslot, rfl⟩

theorem bitCount_maskOf {slots : List Slot} (hnodup : slots.Nodup) :
    bitCount (maskOf slots) = slots.length := by
  have hnumbers : (slots.map Slot.number).Nodup := hnodup.map fun _ _ => Slot.number_inj
  have hperm : ((List.range 32).filter (maskOf slots).toNat.testBit).Perm
      (slots.map Slot.number) := by
    apply (List.perm_ext_iff_of_nodup (List.nodup_range.filter _) hnumbers).mpr
    intro i
    rw [List.mem_filter, testBit_maskOf, List.mem_map, List.mem_range]
    constructor
    · exact fun h => h.2
    · rintro ⟨slot, hslot, rfl⟩
      have hcount := slot.le_count
      exact ⟨by omega, slot, hslot, rfl⟩
  calc
    bitCount (maskOf slots) = ((List.range 32).filter (maskOf slots).toNat.testBit).length :=
      List.countP_eq_length_filter
    _ = (slots.map Slot.number).length := hperm.length_eq
    _ = slots.length := List.length_map _

end Reflash
