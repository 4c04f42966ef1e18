import Reflash.Toml.Span
/-!
# Tokens of a configuration file

The pieces of a text, told apart before anything is known of what they mean: marks, blanks, line
ends, comments, strings and words. A string is everything up to the quotes that close it, or as
much as it can be if they are missing, and a word everything up to the next mark or blank; what is
wrong inside of a piece shows only when it is read.
-/

namespace Reflash.Toml

def isBlank (c : Char) : Bool := c = ' ' || c = '\t'

def isControl (c : Char) : Bool := (c.val < 0x20 && c != '\t') || c.val == 0x7F

inductive Quotes where
  | double
  | single
  | tripleDouble
  | tripleSingle
  deriving DecidableEq

namespace Quotes

def marks : Quotes → List Char
  | double => ['"']
  | single => ['\'']
  | tripleDouble => ['"', '"', '"']
  | tripleSingle => ['\'', '\'', '\'']

def of? : List Char → Option Quotes
  | '"' :: '"' :: '"' :: _ => some tripleDouble
  | '\'' :: '\'' :: '\'' :: _ => some tripleSingle
  | '"' :: _ => some double
  | '\'' :: _ => some single
  | _ => none

/-- How far a string of one line reaches from some place in it: to the next quote, or to the end
of the line. Between double quotes, a backslash takes along the quote or backslash behind it. -/
def lineReach (quote : Char) (sofar : Nat) : List Char → Nat
  | [] => sofar
  | '\\' :: c :: r =>
    if quote = '"' ∧ (c = '"' ∨ c = '\\') then lineReach quote (sofar + 2) r
    else lineReach quote (sofar + 1) (c :: r)
  | c :: r =>
    if c = '\n' then sofar
    else if c = quote then sofar + 1
    else lineReach quote (sofar + 1) r

/-- How far a string of any number of lines reaches from some place in it: to the next three
quotes, and to two more of them if they are there, or to the end of the text. -/
def linesReach (quote : Char) (sofar : Nat) : List Char → Nat
  | [] => sofar
  | c :: r =>
    if (c :: r).take 3 = [quote, quote, quote] then
      sofar + min 5 ((c :: r).takeWhile (· == quote)).length
    else match c, r with
      | '\\', d :: r =>
        if quote = '"' ∧ (d = '"' ∨ d = '\\') then linesReach quote (sofar + 2) r
        else linesReach quote (sofar + 1) (d :: r)
      | _, r => linesReach quote (sofar + 1) r

def reach (quotes : Quotes) (s : List Char) : Nat :=
  match quotes with
  | double => lineReach '"' 1 (s.drop 1)
  | single => lineReach '\'' 1 (s.drop 1)
  | tripleDouble => linesReach '"' 3 (s.drop 3)
  | tripleSingle => linesReach '\'' 3 (s.drop 3)

end Quotes

inductive Token where
  | dot
  | equals
  | comma
  | openBracket
  | closeBracket
  | openBrace
  | closeBrace
  | blank (text : List Char)
  | lineEnd
  /-- A carriage return that no line feed follows; but for that it would end a line. -/
  | loneReturn
  | comment (text : List Char)
  | quoted (quotes : Quotes) (text : List Char)
  | word (text : List Char)
  | endOfText
  deriving DecidableEq

namespace Token

def ofMark? : Char → Option Token
  | '.' => some dot
  | '=' => some equals
  | ',' => some comma
  | '[' => some openBracket
  | ']' => some closeBracket
  | '\x7b' => some openBrace
  | '\x7d' => some closeBrace
  | _ => none

def goesOn (c : Char) : Bool :=
  (ofMark? c).isNone && !isBlank c && c != '#' && c != '\r' && c != '\n'

def first (s : List Char) : Token × Nat :=
  match s with
  | [] => (endOfText, 0)
  | '\n' :: _ => (lineEnd, 1)
  | '\r' :: '\n' :: _ => (lineEnd, 2)
  | '\r' :: _ => (loneReturn, 1)
  | '#' :: _ =>
    let text := s.takeWhile fun c => c != '\n' && c != '\r'
    (comment text, text.length)
  | c :: _ =>
    match ofMark? c, Quotes.of? s with
    | some mark, _ => (mark, 1)
    | none, some quotes =>
      let count := quotes.reach s
      (quoted quotes (s.take count), count)
    | none, none =>
      let text := s.takeWhile (if isBlank c then isBlank else goesOn)
      (if isBlank c then blank text else word text, text.length)

def scan (start : Nat) : (fuel : Nat) → List Char → List (Located Token)
  | 0, _ | _, [] => [⟨.point start, endOfText⟩]
  | fuel + 1, s =>
    let (t, count) := first s
    let (text, r) := s.splitAt count
    let stop := start + byteLength text
    ⟨⟨start, stop⟩, t⟩ :: scan stop fuel r

def endsLine : Token → Bool
  | lineEnd | loneReturn | endOfText => true
  | _ => false

def isVoid : Token → Bool
  | blank _ | lineEnd | loneReturn | comment _ => true
  | _ => false

end Token

abbrev Tokens : Type := List (Located Token)

namespace Tokens

def skipBlank : Tokens → Tokens
  | ⟨_, .blank _⟩ :: r => r
  | s => s

def skipVoid (s : Tokens) : Tokens := s.dropWhile (·.value.isVoid)

def skipLine (s : Tokens) : Tokens := s.dropWhile (!·.value.endsLine)

def ahead : Tokens → Span
  | t :: _ => t.span
  | [] => .point 0

end Tokens
end Reflash.Toml
