import Reflash.Image
import Reflash.Proofs.BigEndian
/-!
# Images as bytes

An image is read from its bytes and written as them. The number of the bytes alone decides whether
they are an image; those that are one come back unchanged, and so do the words of an image.
-/

namespace Reflash.Image

/-! ## The size of the bytes -/

theorem checkSize_eq_ok_iff {bytes : Nat} :
    checkSize bytes = .ok () ↔
      bytes ≠ 0 ∧ bytes % Rom.wordBytes = 0 ∧ bytes ≤ Rom.maxImageBytes := by
  rw [checkSize]
  split
  next hempty => simp [hempty]
  next hempty =>
    split
    next hpart => simp [hpart]
    next hpart =>
      split
      next hlarge => simp [hlarge]
      next hlarge => simp_all

/-- Why a number of bytes is refused: no bytes come before a part of a word, and that before too
many. -/
theorem checkSize_eq_error_iff {bytes : Nat} {e : ImageError} :
    checkSize bytes = .error e ↔
      (bytes = 0 ∧ e = .empty) ∨
      (bytes % Rom.wordBytes ≠ 0 ∧ e = .unaligned bytes) ∨
      (bytes % Rom.wordBytes = 0 ∧ Rom.maxImageBytes < bytes ∧
        e = .tooLarge bytes Rom.maxImageBytes) := by
  rw [checkSize]
  split
  next hempty => simp [hempty, eq_comm]
  next hempty =>
    split
    next hpart => simp [hempty, hpart, eq_comm]
    next hpart =>
      have hwhole : bytes % Rom.wordBytes = 0 := Decidable.not_not.mp hpart
      split
      next hlarge => simp [hempty, hwhole, hlarge, eq_comm]
      next hlarge => simp [hempty, hwhole, hlarge]

theorem ofBytes_eq_ok_iff {bytes : ByteArray} {image : Image} :
    ofBytes bytes = .ok image ↔
      checkSize bytes.size = .ok () ∧ image = ofWords (BigEndian.decode bytes) := by
  rw [ofBytes]
  cases hcheck : checkSize bytes.size with
  | error e =>
      constructor
      · rintro ⟨⟩
      · rintro ⟨⟨⟩, -⟩
  | ok _ => exact ⟨fun h => ⟨rfl, (Except.ok.inj h).symm⟩, fun h => congrArg Except.ok h.2.symm⟩

theorem ofBytes_eq_error_iff {bytes : ByteArray} {e : ImageError} :
    ofBytes bytes = .error e ↔ checkSize bytes.size = .error e := by
  rw [ofBytes]
  cases hcheck : checkSize bytes.size with
  | error e' =>
      exact ⟨fun h => congrArg _ (Except.error.inj h), fun h => congrArg _ (Except.error.inj h)⟩
  | ok _ =>
      constructor
      · rintro ⟨⟩
      · rintro ⟨⟩

/-! ## Both ways -/

theorem toBytes_eq_error_iff {image : Image} {e : ImageError} :
    image.toBytes = .error e ↔ image.isLoaded = false ∧ e = .notLoaded := by
  rw [toBytes, isLoaded]
  cases image.contents? with
  | none => exact ⟨fun h => ⟨rfl, (Except.error.inj h).symm⟩, fun h => congrArg _ h.2.symm⟩
  | some words => exact ⟨nofun, fun h => absurd h.1 Bool.noConfusion⟩

/-- The words of some bytes are written as those bytes if no part of a word is left over. -/
theorem toBytes_ofWords_decode {bytes : ByteArray} (h : bytes.size % Rom.wordBytes = 0) :
    (ofWords (BigEndian.decode bytes)).toBytes = .ok bytes :=
  congrArg Except.ok (BigEndian.encode_decode h)

theorem ofBytes_encode {words : List UInt32} (hne : words ≠ [])
    (hsize : words.length ≤ Rom.maxImageBytes / Rom.wordBytes) :
    ofBytes (BigEndian.encode words) = .ok (ofWords words) := by
  have hpos : 0 < words.length := List.length_pos_iff.mpr hne
  have hlimit : Rom.maxImageBytes / Rom.wordBytes * 4 = Rom.maxImageBytes := rfl
  have hword : words.length * 4 % Rom.wordBytes = 0 := Nat.mul_mod_left ..
  rw [ofBytes_eq_ok_iff, BigEndian.decode_encode, checkSize_eq_ok_iff, BigEndian.size_encode]
  exact ⟨⟨by omega, hword, by omega⟩, rfl⟩

/-- The codec of images. Bytes are an image if they are at least one word, whole words, and not too
many; an image read from them holds their words and is written as the same bytes. Words that fit
are read back from the bytes they are written as, and only an image that is not loaded has none. -/
theorem ofBytes_inverts_toBytes (bytes : ByteArray) (words : List UInt32) (image : Image) :
    (ofBytes bytes = .error .empty ↔ bytes.size = 0) ∧
    (∀ n, ofBytes bytes = .error (.unaligned n) ↔ bytes.size % Rom.wordBytes ≠ 0 ∧ n = bytes.size) ∧
    (∀ n max, ofBytes bytes = .error (.tooLarge n max) ↔
      bytes.size % Rom.wordBytes = 0 ∧ Rom.maxImageBytes < bytes.size ∧
        n = bytes.size ∧ max = Rom.maxImageBytes) ∧
    ((∃ read, ofBytes bytes = .ok read) ↔
      bytes.size ≠ 0 ∧ bytes.size % Rom.wordBytes = 0 ∧ bytes.size ≤ Rom.maxImageBytes) ∧
    (∀ read, ofBytes bytes = .ok read →
      read.isLoaded = true ∧ read.wordCount = bytes.size / Rom.wordBytes ∧
      read.toBytes = .ok bytes ∧
      ∀ i, (h : i < read.words.length) → read.words[i].toNat =
        (BigEndian.byteAt bytes (4 * i)).toNat * 16777216 +
        (BigEndian.byteAt bytes (4 * i + 1)).toNat * 65536 +
        (BigEndian.byteAt bytes (4 * i + 2)).toNat * 256 +
        (BigEndian.byteAt bytes (4 * i + 3)).toNat) ∧
    (words ≠ [] → words.length ≤ Rom.maxImageBytes / Rom.wordBytes →
      ∃ written, (ofWords words).toBytes = .ok written ∧
        ∃ read, ofBytes written = .ok read ∧ read.words = words) ∧
    (∀ e, image.toBytes = .error e ↔ image.isLoaded = false ∧ e = .notLoaded) := by
  refine ⟨?_, fun n => ?_, fun n max => ?_, ?_, fun read hread => ?_, fun hne hsize => ?_,
    fun e => toBytes_eq_error_iff⟩
  · rw [ofBytes_eq_error_iff, checkSize_eq_error_iff]
    simp
  · rw [ofBytes_eq_error_iff, checkSize_eq_error_iff]
    simp
  · rw [ofBytes_eq_error_iff, checkSize_eq_error_iff]
    simp
  · rw [← checkSize_eq_ok_iff]
    exact ⟨fun ⟨_, hread⟩ => (ofBytes_eq_ok_iff.mp hread).1,
      fun hcheck => ⟨_, ofBytes_eq_ok_iff.mpr ⟨hcheck, rfl⟩⟩⟩
  · obtain ⟨hcheck, rfl⟩ := ofBytes_eq_ok_iff.mp hread
    obtain ⟨-, hwhole, -⟩ := checkSize_eq_ok_iff.mp hcheck
    have hwords : (ofWords (BigEndian.decode bytes)).words = BigEndian.decode bytes := rfl
    refine ⟨rfl, ?_, toBytes_ofWords_decode hwhole, fun i hi => ?_⟩
    · rw [wordCount, hwords, BigEndian.length_decode]
      rfl
    · simp only [hwords, BigEndian.getElem_decode, BigEndian.toNat_wordAt]
  · exact ⟨_, rfl, ofWords words, ofBytes_encode hne hsize, rfl⟩

theorem two_words_read_and_written :
    ∃ read, ofBytes (BigEndian.encode [1, 0xFFFFFFFF]) = .ok read ∧
      read.toBytes = .ok (BigEndian.encode [1, 0xFFFFFFFF]) ∧ read.words = [1, 0xFFFFFFFF] := by
  obtain ⟨-, -, -, -, hback, hthere, -⟩ :=
    ofBytes_inverts_toBytes (BigEndian.encode [1, 0xFFFFFFFF]) [1, 0xFFFFFFFF] {}
  obtain ⟨written, hwritten, read, hread, hwords⟩ := hthere (by decide) (by decide)
  obtain rfl : BigEndian.encode [1, 0xFFFFFFFF] = written := Except.ok.inj hwritten
  exact ⟨read, hread, (hback read hread).2.2.1, hwords⟩

end Reflash.Image
