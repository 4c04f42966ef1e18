import Reflash.Toml.Span
/-!
# Excerpts

How a fault of a text is shown to a user: its place, the line that it is in with the stretch
marked below, and what is wrong. Lines and columns are counted from one. A column is a number of
characters, but in front of a character of several bytes it is a number of bytes.
-/

namespace Reflash.Toml

def takeBytes (count : Nat) : List Char → List Char
  | [] => []
  | c :: r => if c.utf8Size ≤ count then c :: takeBytes (count - c.utf8Size) r else []

/-- How many lines are in front of a byte of a text, and how many columns of its line. The place
behind the text is one column behind its last byte, even if that ends a line. -/
def lineAndColumn (text : List Char) (index : Nat) : Nat × Nat :=
  let last := min index (byteLength text - 1)
  let before := takeBytes last text
  let inLine := before.reverse.takeWhile (· != '\n')
  let endsCharacter := byteLength (text.take (before.length + 1)) ≤ last + 1
  let column :=
    if endsCharacter then inLine.length else last - (byteLength before - byteLength inLine)
  (before.count '\n', column + (index - last))

/-- A stretch of a text, shown with what is wrong with it. Marks go no further than the line. -/
def excerpt (text : String) (span : Span) (message : String) : String :=
  let (line, column) := lineAndColumn text.toList span.start
  let content := (text.splitOn "\n").getD line ""
  let number := toString (line + 1)
  let margin := "".pushn ' ' (number.length + 1) ++ "|"
  let width := min (span.stop - span.start) (content.utf8ByteSize - column)
  s!"TOML parse error at line {number}, column {column + 1}\n" ++
    margin ++ "\n" ++
    number ++ " | " ++ content ++ "\n" ++
    margin ++ "".pushn ' ' (column + 1) ++ "".pushn '^' (max 1 width) ++ "\n" ++
    message ++ "\n"

end Reflash.Toml
