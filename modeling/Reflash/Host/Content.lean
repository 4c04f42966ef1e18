import Reflash.BigEndian
import Std.Data.HashMap
/-!
# Contents of a file

The bytes of a file that is written as a whole or patched at offsets. Only the bytes that were
written are kept, so a patch far behind the end costs nothing; the bytes between are zero.
-/

namespace Reflash.Host

structure Content where
  /-- The bytes that the file was written with as a whole. -/
  head : ByteArray := ByteArray.empty
  /-- The bytes patched since, by offset. -/
  patches : Std.HashMap Nat UInt8 := {}
  size : Nat := head.size

namespace Content

def ofBytes (bytes : ByteArray) : Content := { head := bytes }

def zeros (size : Nat) : Content := { size }

def byteAt (c : Content) (offset : Nat) : UInt8 :=
  c.patches.getD offset (BigEndian.byteAt c.head offset)

def byteAt? (c : Content) (offset : Nat) : Option UInt8 :=
  if offset < c.size then some (c.byteAt offset) else none

def setByte (c : Content) (offset : Nat) (byte : UInt8) : Content :=
  { c with patches := c.patches.insert offset byte, size := max c.size (offset + 1) }

def patch (c : Content) (offset : Nat) : List UInt8 → Content
  | [] => c
  | byte :: rest => (c.setByte offset byte).patch (offset + 1) rest

def toBytes (c : Content) : ByteArray :=
  Nat.fold c.size (fun offset _ bytes => bytes.push (c.byteAt offset)) ByteArray.empty

theorem size_fold_push (f : Nat → UInt8) (n : Nat) :
    (Nat.fold n (fun i _ (b : ByteArray) => b.push (f i)) ByteArray.empty).size = n := by
  induction n with
  | zero => rfl
  | succ n ih => rw [Nat.fold_succ, ByteArray.size_push, ih]

theorem size_toBytes (c : Content) : c.toBytes.size = c.size := size_fold_push c.byteAt c.size

def wordAt? (c : Content) (offset : Nat) : Option UInt32 := do
  return BigEndian.word (← c.byteAt? offset) (← c.byteAt? (offset + 1))
    (← c.byteAt? (offset + 2)) (← c.byteAt? (offset + 3))

def setWord (c : Content) (offset : Nat) (word : UInt32) : Content :=
  c.patch offset (BigEndian.bytes word)

end Content
end Reflash.Host
