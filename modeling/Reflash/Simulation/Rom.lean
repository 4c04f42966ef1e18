import Reflash.Rom.Geometry
import Std.Data.HashMap
/-!
# Contents of a simulated ROM

A ROM of which only the words that have been programmed are kept; every other word is erased.
Programming can only clear bits.
-/

namespace Reflash

structure RomContents where
  programmed : Std.HashMap Nat UInt32 := {}

namespace RomContents

def wordAt (rom : RomContents) (index : Nat) : UInt32 :=
  rom.programmed.getD index Rom.erasedWord

/-- The contents with a word at an index, whatever was there. -/
def load (rom : RomContents) (index : Nat) (word : UInt32) : RomContents :=
  ⟨rom.programmed.insert index word⟩

/-- The contents after programming a word: the bits that are clear in it are cleared. -/
def program (rom : RomContents) (index : Nat) (word : UInt32) : RomContents :=
  rom.load index (rom.wordAt index &&& word)

def commit (rom : RomContents) (page : Array (Nat × UInt32)) : RomContents :=
  page.foldl (fun rom (index, word) => rom.program index word) rom

def blank : RomContents := {}

def ofWords (words : List UInt32) : RomContents :=
  words.zipIdx.foldl (fun rom (word, index) => rom.load index word) blank

/-- The first words of the ROM. Words are counted in 32 bits, so a larger count wraps. -/
def firstWords (rom : RomContents) (count : Nat) : List UInt32 :=
  (List.range count.toUInt32.toNat).map rom.wordAt

theorem wordAt_blank (index : Nat) : blank.wordAt index = Rom.erasedWord := by
  simp [wordAt, blank]

theorem wordAt_load (rom : RomContents) (i j : Nat) (word : UInt32) :
    (rom.load i word).wordAt j = if i = j then word else rom.wordAt j := by
  simp only [wordAt, load, Std.HashMap.getD_insert, beq_iff_eq]

theorem wordAt_program (rom : RomContents) (i j : Nat) (word : UInt32) :
    (rom.program i word).wordAt j = if i = j then rom.wordAt i &&& word else rom.wordAt j :=
  wordAt_load ..

end RomContents
end Reflash
