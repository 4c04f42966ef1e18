import Reflash.Image
import Reflash.Rom.Geometry
/-!
# Addresses and pages

Where the words of an image go in the ROM. An image that is not too large leaves room for the flush
word, so no address is ever cut off, and a page starts wherever the index says so.
-/

namespace Reflash

namespace Rom

variable {index : Nat}

theorem toNat_wordAddress (h : index < capacity / wordBytes) :
    (wordAddress index).toNat = index * wordBytes := by
  have hlt : index * wordBytes < 2 ^ 32 := by
    unfold capacity wordBytes at h
    unfold wordBytes
    omega
  exact Nat.mod_eq_of_lt hlt

theorem wordAddress_and_addressMask (h : index < capacity / wordBytes) :
    wordAddress index &&& addressMask = wordAddress index := by
  have hmask : addressMask.toNat = 2 ^ 24 - 1 := rfl
  have hlt : index * wordBytes < 2 ^ 24 := by
    unfold capacity wordBytes at h
    unfold wordBytes
    omega
  apply UInt32.toNat_inj.mp
  rw [UInt32.toNat_and, toNat_wordAddress h, hmask, Nat.and_two_pow_sub_one_eq_mod]
  exact Nat.mod_eq_of_lt hlt

/-- The index of the word at the address that a command leaves in the address register. -/
theorem wordAddress_div_wordBytes (h : index < capacity / wordBytes) :
    (wordAddress index &&& addressMask &&& addressMask).toNat / wordBytes = index := by
  have hpos : 0 < wordBytes := by decide
  rw [wordAddress_and_addressMask h, wordAddress_and_addressMask h, toNat_wordAddress h,
    Nat.mul_div_cancel _ hpos]

theorem wordAddress_mod_pageBytes (h : index < capacity / wordBytes) :
    (wordAddress index).toNat % pageBytes = 0 ↔ index % pageWords = 0 := by
  rw [toNat_wordAddress h]
  unfold pageWords pageBytes wordBytes
  omega

end Rom

namespace Image

variable {image : Image} {words : List UInt32}

theorem sizeBytes_eq (himage : image.contents? = some words) :
    image.sizeBytes = words.length * Rom.wordBytes := by
  rw [sizeBytes, wordCount, Image.words, himage, Option.getD_some]

/-- The largest image leaves room for the flush word. -/
theorem length_lt (himage : image.contents? = some words)
    (hsize : image.sizeBytes ≤ Rom.maxImageBytes) :
    words.length < Rom.capacity / Rom.wordBytes := by
  rw [sizeBytes_eq himage] at hsize
  unfold Rom.maxImageBytes Rom.capacity Rom.pageBytes Rom.wordBytes at hsize
  unfold Rom.capacity Rom.wordBytes
  omega

end Image

end Reflash
