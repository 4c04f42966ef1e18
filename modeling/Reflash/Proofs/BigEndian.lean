import Reflash.BigEndian
/-!
# Words from their bytes

The bytes of a list of words decode to those words: what is written as an image reads as that image.
Bytes without a part of a word at their end are encoded back from their words.
-/

namespace Reflash.BigEndian

private theorem toNat_shift :
    (24 : UInt32).toNat % 32 = 24 ∧ (16 : UInt32).toNat % 32 = 16 ∧ (8 : UInt32).toNat % 32 = 8 :=
  ⟨rfl, rfl, rfl⟩

/-- The four bytes have no bit of the word in common, so they add up. -/
theorem toNat_word (a b c d : UInt8) :
    (word a b c d).toNat =
      a.toNat * 16777216 + (b.toNat * 65536 + (c.toNat * 256 + d.toNat)) := by
  obtain ⟨h24, h16, h8⟩ := toNat_shift
  have ha := a.toNat_lt
  have hb := b.toNat_lt
  have hc := c.toNat_lt
  have hd := d.toNat_lt
  have hshift24 : a.toNat <<< 24 = a.toNat * 16777216 := Nat.shiftLeft_eq ..
  have hshift16 : b.toNat <<< 16 = b.toNat * 65536 := Nat.shiftLeft_eq ..
  have hshift8 : c.toNat <<< 8 = c.toNat * 256 := Nat.shiftLeft_eq ..
  have hlow : c.toNat * 256 ||| d.toNat = c.toNat * 256 + d.toNat := by
    rw [← hshift8, Nat.shiftLeft_add_eq_or_of_lt hd]
  have hmid : b.toNat * 65536 ||| (c.toNat * 256 + d.toNat) =
      b.toNat * 65536 + (c.toNat * 256 + d.toNat) := by
    rw [← hshift16, Nat.shiftLeft_add_eq_or_of_lt (by omega)]
  have hhigh : a.toNat * 16777216 ||| (b.toNat * 65536 + (c.toNat * 256 + d.toNat)) =
      a.toNat * 16777216 + (b.toNat * 65536 + (c.toNat * 256 + d.toNat)) := by
    rw [← hshift24, Nat.shiftLeft_add_eq_or_of_lt (by omega)]
  simp only [word, UInt32.toNat_or, UInt32.toNat_shiftLeft, UInt8.toNat_toUInt32, h24, h16, h8,
    hshift24, hshift16, hshift8, Nat.or_assoc]
  rw [Nat.mod_eq_of_lt (by omega), Nat.mod_eq_of_lt (by omega), Nat.mod_eq_of_lt (by omega), hlow,
    hmid, hhigh]

theorem toNat_wordAt (b : ByteArray) (i : Nat) :
    (wordAt b i).toNat =
      (byteAt b (4 * i)).toNat * 16777216 + (byteAt b (4 * i + 1)).toNat * 65536 +
        (byteAt b (4 * i + 2)).toNat * 256 + (byteAt b (4 * i + 3)).toNat := by
  rw [wordAt, toNat_word]
  omega

theorem word_bytes (w : UInt32) :
    word (w >>> 24).toUInt8 (w >>> 16).toUInt8 (w >>> 8).toUInt8 w.toUInt8 = w := by
  obtain ⟨h24, h16, h8⟩ := toNat_shift
  have hw := w.toNat_lt
  apply UInt32.toNat_inj.mp
  rw [toNat_word]
  simp only [UInt32.toNat_toUInt8, UInt32.toNat_shiftRight, Nat.shiftRight_eq_div_pow, h24, h16, h8]
  omega

theorem bytes_word (a b c d : UInt8) : bytes (word a b c d) = [a, b, c, d] := by
  obtain ⟨h24, h16, h8⟩ := toNat_shift
  have ha := a.toNat_lt
  have hb := b.toNat_lt
  have hc := c.toNat_lt
  have hd := d.toNat_lt
  have hfirst : (word a b c d >>> 24).toUInt8 = a := by
    apply UInt8.toNat_inj.mp
    rw [UInt32.toNat_toUInt8, UInt32.toNat_shiftRight, Nat.shiftRight_eq_div_pow, h24, toNat_word]
    omega
  have hsecond : (word a b c d >>> 16).toUInt8 = b := by
    apply UInt8.toNat_inj.mp
    rw [UInt32.toNat_toUInt8, UInt32.toNat_shiftRight, Nat.shiftRight_eq_div_pow, h16, toNat_word]
    omega
  have hthird : (word a b c d >>> 8).toUInt8 = c := by
    apply UInt8.toNat_inj.mp
    rw [UInt32.toNat_toUInt8, UInt32.toNat_shiftRight, Nat.shiftRight_eq_div_pow, h8, toNat_word]
    omega
  have hlast : (word a b c d).toUInt8 = d := by
    apply UInt8.toNat_inj.mp
    rw [UInt32.toNat_toUInt8, toNat_word]
    omega
  rw [bytes, hfirst, hsecond, hthird, hlast]

/-! ## Lists of words -/

theorem toList_foldl_push (out : ByteArray) (l : List UInt8) :
    (l.foldl ByteArray.push out).data.toList = out.data.toList ++ l := by
  induction l generalizing out with
  | nil => exact (List.append_nil _).symm
  | cons byte rest ih =>
      rw [List.foldl_cons, ih, ByteArray.data_push, Array.toList_push, List.append_assoc]
      rfl

theorem toList_encode (words : List UInt32) : (encode words).data.toList = words.flatMap bytes := by
  have hfold : ∀ out : ByteArray,
      (words.foldl (fun out w => (bytes w).foldl ByteArray.push out) out).data.toList =
        out.data.toList ++ words.flatMap bytes := by
    induction words with
    | nil => exact fun out => (List.append_nil _).symm
    | cons w rest ih =>
        intro out
        rw [List.foldl_cons, ih, toList_foldl_push, List.flatMap_cons, List.append_assoc]
  exact hfold ByteArray.empty

theorem size_encode (words : List UInt32) : (encode words).size = words.length * 4 := by
  have hlength : (words.flatMap bytes).length = words.length * 4 := by
    induction words with
    | nil => rfl
    | cons w rest ih =>
        rw [List.flatMap_cons, List.length_append, ih, List.length_cons]
        show 4 + rest.length * 4 = (rest.length + 1) * 4
        omega
  rw [← hlength, ← toList_encode]
  rfl

theorem byteAt_eq (b : ByteArray) (i : Nat) : byteAt b i = b.data.toList[i]?.getD 0 := by
  rw [byteAt, Array.getElem?_toList]
  rfl

theorem wordAt_encode (words : List UInt32) {i : Nat} (h : i < words.length) :
    wordAt (encode words) i = words[i] := by
  simp only [wordAt, byteAt_eq, toList_encode]
  induction words generalizing i with
  | nil => exact absurd h (Nat.not_lt_zero i)
  | cons w rest ih =>
      cases i with
      | zero => exact word_bytes w
      | succ i =>
          -- The bytes of the first word stand before those of the others.
          have hskip : ∀ k, (bytes w ++ rest.flatMap bytes)[4 * (i + 1) + k]? =
              (rest.flatMap bytes)[4 * i + k]? := by
            intro k
            have hfour : (bytes w).length = 4 := rfl
            have hindex : 4 * (i + 1) + k - 4 = 4 * i + k := by omega
            rw [List.getElem?_append_right (by omega), hfour, hindex]
          have hrest := ih (i := i) (Nat.lt_of_succ_lt_succ h)
          have hfirst := hskip 0
          simp only [Nat.add_zero] at hfirst
          rw [List.flatMap_cons, hfirst, hskip, hskip, hskip, hrest, List.getElem_cons_succ]

theorem length_decode (b : ByteArray) : (decode b).length = b.size / 4 := by
  rw [decode, List.length_map, List.length_range]

theorem getElem_decode {b : ByteArray} {i : Nat} (h : i < (decode b).length) :
    (decode b)[i] = wordAt b i := by
  simp only [decode, List.getElem_map, List.getElem_range]

theorem decode_encode (words : List UInt32) : decode (encode words) = words := by
  apply List.ext_getElem
  · rw [length_decode, size_encode, Nat.mul_div_cancel _ (by decide)]
  · intro i _ hi
    rw [getElem_decode, wordAt_encode words hi]

theorem flatMap_bytes_wordAt (b : ByteArray) (count : Nat) :
    ((List.range count).map (wordAt b)).flatMap bytes =
      (List.range (4 * count)).map (byteAt b) := by
  induction count with
  | zero => rfl
  | succ count ih =>
      have hlast : bytes (wordAt b count) = [byteAt b (4 * count), byteAt b (4 * count + 1),
          byteAt b (4 * count + 2), byteAt b (4 * count + 3)] := bytes_word ..
      rw [List.range_succ, List.map_append, List.flatMap_append, ih, Nat.mul_succ]
      simp [List.range_succ, hlast]

theorem toList_eq_map_byteAt (b : ByteArray) :
    (List.range b.size).map (byteAt b) = b.data.toList := by
  have hsize : b.size = b.data.toList.length := rfl
  apply List.ext_getElem
  · rw [List.length_map, List.length_range, hsize]
  · intro i _ hi
    rw [List.getElem_map, List.getElem_range, byteAt_eq, List.getElem?_eq_getElem hi,
      Option.getD_some]

theorem encode_decode {b : ByteArray} (h : b.size % 4 = 0) : encode (decode b) = b := by
  have hcount : 4 * (b.size / 4) = b.size := by omega
  have hbytes : (encode (decode b)).data.toList = b.data.toList := by
    rw [toList_encode, decode, flatMap_bytes_wordAt, hcount, toList_eq_map_byteAt]
  exact ByteArray.ext (Array.toList_inj.mp hbytes)

end Reflash.BigEndian
