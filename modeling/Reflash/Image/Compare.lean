import Reflash.Engine
import Reflash.Image
/-!
# Comparing images

A file's image against one read back from a ROM. Every word is compared. The first mismatches are
kept as samples and noted for the log, all of them are counted.
-/

namespace Reflash

structure Tally where
  total : Nat := 0
  first : List Mismatch := []

namespace Tally

def hasRoom (t : Tally) : Bool := t.first.length < maxSamples

def add (t : Tally) (m : Mismatch) : Tally :=
  ⟨t.total + 1, if t.hasRoom then t.first ++ [m] else t.first⟩

end Tally

namespace Image

variable {σ : Type}

def compareFrom (onTick : Exchange Unit) (index : Nat) (tally : Tally) :
    List (UInt32 × UInt32) → Job σ RomError Tally
  | [] => return tally
  | (expected, actual) :: rest => do
    if expected = actual then
      Routine.lift onTick
      compareFrom onTick (index + 1) tally rest
    else
      let m : Mismatch := ⟨index, expected, actual⟩
      if tally.hasRoom then
        Job.remark (.wordDiffers m)
      Routine.lift onTick
      compareFrom onTick (index + 1) (tally.add m) rest

/-- Compare a file's image against a ROM's. Both have to be loaded and of the same length. -/
def compare (file rom : Image) (onTick : Exchange Unit) : Job σ RomError Unit := do
  if !file.isLoaded || !rom.isLoaded then
    Routine.fail .imageNotLoaded
  else if file.wordCount ≠ rom.wordCount then
    Routine.fail (.sizeMismatch file.wordCount rom.wordCount)
  else
    let tally ← compareFrom onTick 0 {} (file.words.zip rom.words)
    if tally.total ≠ 0 then
      Routine.fail (.verifyMismatch tally.total tally.first)

end Image
end Reflash
