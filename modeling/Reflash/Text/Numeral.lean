/-!
# Numerals

Hexadecimal and column-aligned decimal text. Widths are least widths: a longer number is
written in full and nothing is cut.
-/

namespace Reflash.Text

def padLeft (width : Nat) (fill : Char) (s : String) : String :=
  "".pushn fill (width - s.length) ++ s

def padRight (width : Nat) (fill : Char) (s : String) : String :=
  s.pushn fill (width - s.length)

/-- Lower-case hexadecimal digits, the most significant first; zero has one digit. -/
def hexDigits (n : Nat) : String := String.ofList (Nat.toDigits 16 n)

/-- A hexadecimal number with its `0x`, filled with zeros to the least number of digits. -/
def hex (digits : Nat) (n : Nat) : String := "0x" ++ padLeft digits '0' (hexDigits n)

def column (n : Nat) : String := padLeft 2 ' ' (toString n)

end Reflash.Text
