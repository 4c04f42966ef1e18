/-!
# Big-endian words

Images on disk and windows on the bus hold 32-bit words with the most significant byte first.
-/

namespace Reflash.BigEndian

/-- The word of four bytes, the most significant first. -/
def word (a b c d : UInt8) : UInt32 :=
  (a.toUInt32 <<< 24) ||| (b.toUInt32 <<< 16) ||| (c.toUInt32 <<< 8) ||| d.toUInt32

def bytes (w : UInt32) : List UInt8 :=
  [(w >>> 24).toUInt8, (w >>> 16).toUInt8, (w >>> 8).toUInt8, w.toUInt8]

def byteAt (b : ByteArray) (i : Nat) : UInt8 := b[i]?.getD 0

def wordAt (b : ByteArray) (i : Nat) : UInt32 :=
  word (byteAt b (4 * i)) (byteAt b (4 * i + 1)) (byteAt b (4 * i + 2)) (byteAt b (4 * i + 3))

/-- The words of an array of bytes; up to three bytes at the end make none. -/
def decode (b : ByteArray) : List UInt32 := (List.range (b.size / 4)).map (wordAt b)

def encode (words : List UInt32) : ByteArray :=
  words.foldl (fun out w => (bytes w).foldl ByteArray.push out) ByteArray.empty

end Reflash.BigEndian
