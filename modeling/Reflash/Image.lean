import Reflash.Host.Content
import Reflash.Host.OsError
import Reflash.Rom.Geometry
import Reflash.Text.Quoted
/-!
# Firmware images

An image is a sequence of words, read from a file or from a ROM, or nothing as long as it is not
loaded. On disk it is the bare words with the most significant byte first; the file's length is
its size.
-/

namespace Reflash

structure Image where
  /-- The words, once the image is loaded. -/
  contents? : Option (List UInt32) := none
  /-- The path of the file that the image was read from. -/
  source? : Option String := none
  deriving DecidableEq, Inhabited

inductive ImageError where
  | inaccessible (path : String) (cause : Host.OsError)
  | empty
  | unaligned (bytes : Nat)
  | tooLarge (bytes max : Nat)
  | notLoaded
  deriving DecidableEq

def ImageError.message : ImageError → String
  | inaccessible path _ => "can't access " ++ Text.quoted path
  | empty => "image is empty"
  | unaligned bytes => s!"image length {bytes} is not a multiple of 4 bytes"
  | tooLarge bytes max => s!"image of {bytes} bytes doesn't fit in the rom (max {max})"
  | notLoaded => "image not loaded"

namespace Image

def ofWords (words : List UInt32) : Image := { contents? := some words }

/-- Whether the image holds words, be it none. -/
def isLoaded (image : Image) : Bool := image.contents?.isSome

def words (image : Image) : List UInt32 := image.contents?.getD []

def wordCount (image : Image) : Nat := image.words.length

def sizeBytes (image : Image) : Nat := image.wordCount * Rom.wordBytes

/-- An image file has at least one word, no part of a word, and fits below the ROM's last page. -/
def checkSize (bytes : Nat) : Except ImageError Unit :=
  if bytes = 0 then .error .empty
  else if bytes % Rom.wordBytes ≠ 0 then .error (.unaligned bytes)
  else if Rom.maxImageBytes < bytes then .error (.tooLarge bytes Rom.maxImageBytes)
  else .ok ()

def ofBytes (bytes : ByteArray) : Except ImageError Image := do
  checkSize bytes.size
  return ofWords (BigEndian.decode bytes)

def toBytes (image : Image) : Except ImageError ByteArray :=
  match image.contents? with
  | none => .error .notLoaded
  | some words => .ok (BigEndian.encode words)

/-- The image in a file's content, the bytes of which matter only if they are not too many. -/
def ofContent (content : Host.Content) : Except ImageError Image := do
  checkSize content.size
  return ofWords (BigEndian.decode content.toBytes)

theorem ofContent_eq (content : Host.Content) : ofContent content = ofBytes content.toBytes := by
  rw [ofContent, ofBytes, Host.Content.size_toBytes]

def ofFile (path : String) (content : Except Host.OsError Host.Content) :
    Except ImageError Image :=
  match content with
  | .error cause => .error (.inaccessible path cause)
  | .ok content => do
    let image ← ofContent content
    return { image with source? := some path }

/-- The image without its words. The recorded source stays. -/
def release (image : Image) : Image := { image with contents? := none }

def fill (image : Image) (words : List UInt32) : Image := { image with contents? := some words }

end Image
end Reflash
