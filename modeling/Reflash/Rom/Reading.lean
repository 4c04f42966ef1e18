import Reflash.Image
import Reflash.Rom.Session
/-!
# Reading a ROM back

Words are read one command each, from the start of the ROM on. Reading back fills an image, which
is not loaded while the reading goes on.
-/

namespace Reflash.RomSession

/-- Read the word at an address; the last word of a page closes the ROM's read buffer. -/
def readWord (address : UInt32) (lastOfPage : Bool) : RomJob UInt32 := do
  let cmd : Rom.Command := { opcode := .autoRead, endOfCommand := lastOfPage }
  let word ← query (cmd.atAddress address)
  count fun c => { c with wordsRead := c.wordsRead + 1 }
  return word

/-- Read the given number of words from an index on, with those read before in reverse. -/
def readWordsFrom (onTick : Exchange Unit) (index : Nat) (sofar : List UInt32) :
    (count : Nat) → RomJob (List UInt32)
  | 0 => return sofar.reverse
  | count + 1 => do
    let word ← readWord (Rom.wordAddress index) (Rom.endsPage index)
    Routine.lift onTick
    readWordsFrom onTick (index + 1) (word :: sofar) count

def readWords (count : Nat) (onTick : Exchange Unit) : RomJob (List UInt32) :=
  readWordsFrom onTick 0 [] count

/-- Read `sizeBytes` from the start of the ROM into the image beside the session. A bad size is
refused at once. Otherwise the image loses its words, and has the new ones when all are read. -/
def download (sizeBytes : Nat) (onTick : Exchange Unit) :
    Job (RomSession × Image) RomError Unit := do
  if sizeBytes % Rom.wordBytes ≠ 0 ∨ Rom.capacity < sizeBytes then
    Routine.fail (.badTransferSize sizeBytes)
  else
    Routine.modify fun (s, image) => (s, image.release)
    let words ← (readWords (sizeBytes / Rom.wordBytes) onTick).within
      (fun (s, _) => s) (fun (_, image) s => (s, image))
    Routine.modify fun (s, image) => (s, image.fill words)

end Reflash.RomSession
