import Reflash.Image
import Reflash.Rom.Session
/-!
# Programming a ROM

Words are written page by page. The write-enable latch is set before each page and cleared by its
commit. A flush word behind the image closes the last page.
-/

namespace Reflash.RomSession

/-- Write a word at an address. The first word of a page sets the write-enable latch before, the
last word commits the page, and the commit is waited for. -/
def writeWord (address word : UInt32) (lastOfPage : Bool) : RomJob Unit := do
  if address.toNat % Rom.pageBytes = 0 then
    enableWrites
  let cmd : Rom.Command := { opcode := .pageProgram, data := some word, endOfCommand := lastOfPage }
  command (cmd.atAddress address)
  count fun c => { c with wordsWritten := c.wordsWritten + 1 }
  if lastOfPage then
    count fun c => { c with pageWaits := c.pageWaits + 1 }
    let _ ← awaitWrite (← Routine.get).budgets.pageTries Exchange.silent

def writeWordsFrom (onTick : Exchange Unit) (index : Nat) : List UInt32 → RomJob Nat
  | [] => return index
  | word :: rest => do
    writeWord (Rom.wordAddress index) word (Rom.endsPage index)
    Routine.lift onTick
    writeWordsFrom onTick (index + 1) rest

/-- Program an image from the start of an erased ROM, and write the flush word behind it. An image
that is not loaded or too large is refused without a bus cycle. -/
def program (image : Image) (onTick : Exchange Unit) : RomJob Unit := do
  match image.contents? with
  | none => Routine.fail .imageNotLoaded
  | some words =>
    if Rom.maxImageBytes < image.sizeBytes then
      Routine.fail (.badTransferSize image.sizeBytes)
    else
      let behind ← writeWordsFrom onTick 0 words
      writeWord (Rom.wordAddress behind) Rom.flushWord true

end Reflash.RomSession
