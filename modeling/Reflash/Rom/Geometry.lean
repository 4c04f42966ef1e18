/-!
# Geometry of the configuration ROM

The ROM is addressed by 24 bits, read in 32-bit words and programmed in pages of 256 bytes.
-/

namespace Reflash.Rom

def wordBytes : Nat := 4
def pageBytes : Nat := 256
def pageWords : Nat := pageBytes / wordBytes
def addressMask : UInt32 := 0x00FFFFFF
def capacity : Nat := 0x1000000
def erasedWord : UInt32 := 0xFFFFFFFF
/-- The word written behind an image to close its last page. It changes no bit. -/
def flushWord : UInt32 := 0xFFFFFFFF
/-- Bytes of the largest image that is programmed. The last page stays free, so that the flush
word always lands inside the ROM. -/
def maxImageBytes : Nat := capacity - pageBytes
def bitstreamBytes : Nat := 0x400000

def wordAddress (index : Nat) : UInt32 := (index * wordBytes).toUInt32

def endsPage (index : Nat) : Bool := (index + 1) % pageWords == 0

end Reflash.Rom
