import Reflash.Text.Numeral
/-!
# Firmware versions

A board runs two FPGAs, and its firmware version is the pair of their versions.
-/

namespace Reflash

/-- Firmware of the two FPGAs of a board. -/
structure Version where
  control : UInt16
  processing : UInt16
  deriving DecidableEq, Inhabited

namespace Version

/-- One word: the control version in the upper half, the processing version in the lower. -/
def combined (v : Version) : UInt32 := (v.control.toUInt32 <<< 16) ||| v.processing.toUInt32

def ofCombined (word : UInt32) : Version := ⟨(word >>> 16).toUInt16, word.toUInt16⟩

def compare (a b : Version) : Ordering :=
  (Ord.compare a.control b.control).then (Ord.compare a.processing b.processing)

def text (v : Version) : String :=
  Text.hex 4 v.control.toNat ++ "/" ++ Text.hex 4 v.processing.toNat

end Version
end Reflash
