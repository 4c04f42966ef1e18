import Reflash.Host.Content
import Reflash.Proofs.BigEndian
/-!
# Bytes of a file

The bytes of a content in order, and what a patch does to them. A word is read from four bytes that
are all there; it replaces four, and zeros come before it if it lies behind the end.
-/

namespace Reflash.Host.Content

variable {c : Content} {bytes : ByteArray}

/-! ## All bytes in order -/

private theorem toList_fold_push (f : Nat → UInt8) (n : Nat) :
    (Nat.fold n (fun i _ (b : ByteArray) => b.push (f i)) ByteArray.empty).data.toList =
      (List.range n).map f := by
  induction n with
  | zero => rfl
  | succ n ih =>
      rw [Nat.fold_succ, ByteArray.data_push, Array.toList_push, ih, List.range_succ,
        List.map_append]
      rfl

theorem getElem?_toBytes (c : Content) (offset : Nat) : c.toBytes[offset]? = c.byteAt? offset := by
  have hlist : c.toBytes[offset]? = c.toBytes.data.toList[offset]? := by
    rw [Array.getElem?_toList]
    rfl
  rw [hlist, toBytes, toList_fold_push, List.getElem?_map, byteAt?]
  split
  next hinside => rw [List.getElem?_range hinside, Option.map_some]
  next hbehind =>
    have hnone : (List.range c.size)[offset]? = none :=
      List.getElem?_eq_none (by rw [List.length_range]; exact Nat.le_of_not_lt hbehind)
    rw [hnone, Option.map_none]

theorem byteAt_ofBytes (bytes : ByteArray) (offset : Nat) :
    (ofBytes bytes).byteAt offset = BigEndian.byteAt bytes offset :=
  Std.HashMap.getD_empty

theorem toBytes_ofBytes (bytes : ByteArray) : (ofBytes bytes).toBytes = bytes := by
  apply ByteArray.ext
  apply Array.ext'
  rw [toBytes, toList_fold_push]
  apply List.ext_getElem
  · rw [List.length_map, List.length_range]
    rfl
  · intro i _ hi
    rw [List.getElem_map, List.getElem_range, byteAt_ofBytes, BigEndian.byteAt_eq,
      List.getElem?_eq_getElem hi, Option.getD_some]

/-- The bytes of a file are these, and nothing but zeros is kept behind them, which would come to
light if the file grew. -/
structure Holds (c : Content) (bytes : ByteArray) : Prop where
  toBytes_eq : c.toBytes = bytes
  blank : ∀ offset, c.size ≤ offset → c.byteAt offset = 0

/-- A content that has not been patched holds its bytes, and zeros if it is larger than they are. -/
theorem holds_unpatched {head : ByteArray} {size : Nat} (h : head.size ≤ size) :
    ({ head, size } : Content).Holds ({ head, size } : Content).toBytes where
  toBytes_eq := rfl
  blank := by
    intro offset hbehind
    have hbyte : ({ head, size } : Content).byteAt offset = BigEndian.byteAt head offset :=
      Std.HashMap.getD_empty
    have hnone : head.data.toList[offset]? = none :=
      List.getElem?_eq_none (Nat.le_trans h hbehind)
    rw [hbyte, BigEndian.byteAt_eq, hnone, Option.getD_none]

theorem holds_ofBytes (bytes : ByteArray) : (ofBytes bytes).Holds bytes where
  toBytes_eq := toBytes_ofBytes bytes
  blank := (holds_unpatched (Nat.le_refl bytes.size)).blank

theorem Holds.size_eq (h : c.Holds bytes) : c.size = bytes.size := by
  rw [← h.toBytes_eq, size_toBytes]

theorem Holds.byteAt_eq (h : c.Holds bytes) (offset : Nat) :
    c.byteAt offset = BigEndian.byteAt bytes offset := by
  rw [BigEndian.byteAt, ← h.toBytes_eq, getElem?_toBytes, byteAt?]
  split
  next => rfl
  next hbehind => exact h.blank offset (Nat.le_of_not_lt hbehind)

/-! ## Words -/

theorem byteAt_setByte (c : Content) (offset i : Nat) (byte : UInt8) :
    (c.setByte offset byte).byteAt i = if i = offset then byte else c.byteAt i := by
  rw [byteAt, setByte, Std.HashMap.getD_insert]
  by_cases hsame : i = offset
  · rw [if_pos (beq_iff_eq.mpr hsame.symm), if_pos hsame]
  · rw [if_neg (by simpa using Ne.symm hsame), if_neg hsame, byteAt]

theorem byteAt_patch (c : Content) (offset i : Nat) (new : List UInt8) :
    (c.patch offset new).byteAt i =
      ((if offset ≤ i then new[i - offset]? else none).getD (c.byteAt i)) := by
  induction new generalizing c offset with
  | nil => simp [patch]
  | cons byte rest ih =>
      rw [patch, ih, byteAt_setByte]
      obtain hbefore | rfl | hbehind := Nat.lt_trichotomy i offset
      · have hneither : ¬offset + 1 ≤ i ∧ ¬offset ≤ i := by omega
        rw [if_neg hneither.1, if_neg hneither.2, if_neg (Nat.ne_of_lt hbefore)]
      · rw [if_neg (Nat.not_succ_le_self i), Option.getD_none, if_pos rfl,
          if_pos (Nat.le_refl i), Nat.sub_self, List.getElem?_cons_zero, Option.getD_some]
      · have hindex : i - offset = i - (offset + 1) + 1 := by omega
        rw [if_pos (Nat.succ_le_of_lt hbehind), if_pos (Nat.le_of_lt hbehind),
          if_neg (Nat.ne_of_gt hbehind), hindex, List.getElem?_cons_succ]

theorem size_setWord (c : Content) (offset : Nat) (word : UInt32) :
    (c.setWord offset word).size = max c.size (offset + 4) := by
  simp only [setWord, BigEndian.bytes, patch, setByte]
  omega

theorem Holds.setWord (h : c.Holds bytes) (offset : Nat) (word : UInt32) :
    (c.setWord offset word).Holds (c.setWord offset word).toBytes where
  toBytes_eq := rfl
  blank := by
    intro i hbehind
    rw [size_setWord] at hbehind
    have hnone : (BigEndian.bytes word)[i - offset]? = none :=
      List.getElem?_eq_none (by show 4 ≤ i - offset; omega)
    rw [Content.setWord, byteAt_patch, hnone, ite_self, Option.getD_none]
    exact h.blank i (by omega)

/-- Outside of the word that is written the bytes stay as they were, and zeros come in front of it if
it lies behind the end. -/
theorem Holds.getElem?_setWord (h : c.Holds bytes) (offset i : Nat) (word : UInt32) :
    (c.setWord offset word).toBytes[i]? =
      if offset ≤ i ∧ i < offset + 4 then (BigEndian.bytes word)[i - offset]?
      else if i < bytes.size then bytes[i]?
      else if i < offset then some 0
      else none := by
  have hlength : (BigEndian.bytes word).length = 4 := rfl
  rw [getElem?_toBytes, byteAt?, size_setWord, Content.setWord, byteAt_patch, ← h.toBytes_eq,
    size_toBytes, getElem?_toBytes, byteAt?]
  by_cases hword : offset ≤ i ∧ i < offset + 4
  · have hget : (BigEndian.bytes word)[i - offset]? = some (BigEndian.bytes word)[i - offset] :=
      List.getElem?_eq_getElem (by omega)
    rw [if_pos (by omega), if_pos hword, if_pos hword.1, hget, Option.getD_some]
  · have hnone : (if offset ≤ i then (BigEndian.bytes word)[i - offset]? else none) = none := by
      split
      next hle => exact List.getElem?_eq_none (by omega)
      next => rfl
    rw [if_neg hword, hnone, Option.getD_none]
    by_cases hold : i < c.size
    · rw [if_pos (by omega), if_pos hold, if_pos hold]
    · rw [if_neg hold, h.blank i (Nat.le_of_not_lt hold)]
      by_cases hgap : i < offset
      · rw [if_pos (by omega), if_pos hgap]
      · rw [if_neg (by omega), if_neg hgap]

def wordFrom (c : Content) (offset : Nat) : UInt32 :=
  BigEndian.word (c.byteAt offset) (c.byteAt (offset + 1)) (c.byteAt (offset + 2))
    (c.byteAt (offset + 3))

theorem wordAt?_eq (c : Content) (offset : Nat) :
    c.wordAt? offset = if offset + 4 ≤ c.size then some (c.wordFrom offset) else none := by
  have hbyte : ∀ i < c.size, c.byteAt? i = some (c.byteAt i) := fun i hi => if_pos hi
  split
  next hinside =>
    rw [wordAt?, hbyte offset (by omega), hbyte (offset + 1) (by omega),
      hbyte (offset + 2) (by omega), hbyte (offset + 3) (by omega)]
    rfl
  next hshort =>
    have hlast : c.byteAt? (offset + 3) = none := if_neg (by omega)
    rw [wordAt?, hlast]
    cases c.byteAt? offset <;> cases c.byteAt? (offset + 1) <;> cases c.byteAt? (offset + 2) <;> rfl

theorem wordFrom_setWord (c : Content) (offset : Nat) (word : UInt32) :
    (c.setWord offset word).wordFrom offset = word := by
  simp [wordFrom, setWord, byteAt_patch, BigEndian.bytes, BigEndian.word_bytes]

theorem Holds.toNat_wordFrom (h : c.Holds bytes) (offset : Nat) :
    (c.wordFrom offset).toNat =
      (BigEndian.byteAt bytes offset).toNat * 16777216 +
        (BigEndian.byteAt bytes (offset + 1)).toNat * 65536 +
        (BigEndian.byteAt bytes (offset + 2)).toNat * 256 +
        (BigEndian.byteAt bytes (offset + 3)).toNat := by
  rw [wordFrom, BigEndian.toNat_word, h.byteAt_eq, h.byteAt_eq, h.byteAt_eq, h.byteAt_eq]
  omega

end Reflash.Host.Content
