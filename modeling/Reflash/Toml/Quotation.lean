import Reflash.Toml.SyntaxError
/-!
# Quoted strings

What a string says between its quotes. Single quotes spell everything as it is; between double
quotes a backslash starts an escape. A control character other than the tab stands for itself
nowhere but in an escape, and a line end only in a string of several lines.
-/

namespace Reflash.Toml

def digit? (radix : Nat) (c : Char) : Option Nat :=
  let value :=
    if c.isDigit then c.toNat - '0'.toNat
    else if 'a' ≤ c ∧ c ≤ 'f' then c.toNat - 'a'.toNat + 10
    else if 'A' ≤ c ∧ c ≤ 'F' then c.toNat - 'A'.toNat + 10
    else radix
  if value < radix then some value else none

def ofDigits (radix : Nat) (digits : List Nat) : Nat :=
  digits.foldl (fun n d => n * radix + d) 0

def StringError.reading {α : Type} (cause : StringError) (span : Span) : Reading α :=
  .error ⟨span, .quoted cause⟩

/-- The character whose code point is written by exactly so many hexadecimal digits, and the text
behind them. The text ends where `span` ends. -/
def codePoint (span : Span) (count : Nat) (s : List Char) : Reading (Char × List Char) :=
  let digits := (s.takeWhile fun c => (digit? 16 c).isSome).take count
  let r := s.drop digits.length
  let n := ofDigits 16 (digits.filterMap (digit? 16))
  if digits.length < count then StringError.tooFewDigits.reading (span.tail r).front
  else if n.isValidChar then .ok (Char.ofNat n, r)
  else StringError.badCodePoint.reading (span.tail s).front

def escape (span : Span) (s : List Char) : Reading (Char × List Char) :=
  match s with
  | 'b' :: r => .ok ('\x08', r)
  | 't' :: r => .ok ('\t', r)
  | 'n' :: r => .ok ('\n', r)
  | 'f' :: r => .ok ('\x0c', r)
  | 'r' :: r => .ok ('\r', r)
  | 'e' :: r => .ok ('\x1b', r)
  | '"' :: r => .ok ('"', r)
  | '\\' :: r => .ok ('\\', r)
  | 'x' :: r => codePoint span 2 r
  | 'u' :: r => codePoint span 4 r
  | 'U' :: r => codePoint span 8 r
  | s => StringError.badEscape.reading (span.tail s).front

def skipLines : List Char → List Char
  | ' ' :: r | '\t' :: r | '\n' :: r => skipLines r
  | '\r' :: '\n' :: r => skipLines r
  | s => s

def lineEnd? : List Char → Option (List Char)
  | '\n' :: r | '\r' :: '\n' :: r => some r
  | _ => none

namespace Quotes

def spansLines : Quotes → Bool
  | double | single => false
  | tripleDouble | tripleSingle => true

def escapes : Quotes → Bool
  | double | tripleDouble => true
  | single | tripleSingle => false

/-- The fault of a control character that a text starts with. Where there are escapes, all those
that follow one another are told at once. -/
def controlFault (q : Quotes) (span : Span) (s : List Char) : Fault :=
  match s with
  | '\r' :: r =>
    if q.spansLines then ⟨(span.tail r).front, .quoted .loneReturn⟩
    else ⟨place, .quoted (.control q)⟩
  | _ => ⟨place, .quoted (.control q)⟩
where
  place : Span :=
    if !q.escapes then (span.tail s).front
    else
      let isBad (c : Char) := isControl c && !(q.spansLines && (c = '\n' || c = '\r'))
      (span.tail s).first (s.takeWhile isBad).length

/-- What a text says behind a backslash and blanks that end a line. All blanks and line ends
behind it are left out. -/
def continueLine (q : Quotes) (span : Span) (s : List Char) : Reading (List Char) :=
  match lineEnd? s, s with
  | some r, _ => .ok (skipLines r)
  | none, '\r' :: r => StringError.loneReturn.reading (span.tail r).front
  | none, s => (StringError.noLineEnd q).reading (span.tail s).front

/-- What the inside of a string says; what it says so far is kept in reverse. The text ends where
`span` ends. -/
def unescape (q : Quotes) (span : Span) (sofar : List Char) :
    (fuel : Nat) → List Char → Reading String
  | 0, _ => .ok (String.ofList sofar.reverse)
  | fuel + 1, s =>
    match s with
    | [] => .ok (String.ofList sofar.reverse)
    | '\\' :: r =>
      if !q.escapes then unescape q span ('\\' :: sofar) fuel r
      else if q.spansLines && r.head?.any fun c => isBlank c || c = '\n' || c = '\r' then do
        unescape q span sofar fuel (← q.continueLine span (r.dropWhile isBlank))
      else do
        let (c, r) ← escape span r
        unescape q span (c :: sofar) fuel r
    | '\r' :: '\n' :: r =>
      if q.spansLines then unescape q span ('\n' :: '\r' :: sofar) fuel r
      else .error (q.controlFault span s)
    | c :: r =>
      if isControl c && !(q.spansLines && c = '\n') then .error (q.controlFault span s)
      else unescape q span (c :: sofar) fuel r

/-- What lies between the quotes of a string. None if it is not closed. A line end right at the
start of a string of several lines does not count. -/
def inside? (q : Quotes) (text : List Char) : Option (List Char) :=
  let body := text.drop q.marks.length
  let body := if q.spansLines then (lineEnd? body).getD body else body
  if q.marks.isSuffixOf body then some (body.take (body.length - q.marks.length)) else none

def content (q : Quotes) (span : Span) (text : List Char) : Reading String :=
  match q.inside? text with
  | some body => q.unescape ⟨span.start, span.stop - q.marks.length⟩ [] body.length body
  | none => (StringError.unclosed q).reading span.back

end Quotes
end Reflash.Toml
