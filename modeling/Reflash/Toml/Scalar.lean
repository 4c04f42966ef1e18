import Reflash.Toml.Moment
import Reflash.Toml.Value
/-!
# Unquoted scalars

Numbers, truth values, dates and times: everything that is written without quotes or brackets. The
first character decides what a word is meant to be. A word that looks like a number need not be
one: an integer that has no digits, or that goes on with something else behind its first group of
them, is a value of which nothing can be made.
-/

namespace Reflash.Toml

def ScalarError.reading {α : Type} (cause : ScalarError) (span : Span) : Reading α :=
  .error ⟨span, .scalar cause⟩

/-- A word of which nothing can be made, perhaps because a quote is missing in front of it. -/
def unquoted {α : Type} (span : Span) (s : List Char) : Reading α :=
  let quotes := [Quotes.tripleSingle, .tripleDouble, .single, .double]
  match quotes.find? fun q => q.marks.isSuffixOf s with
  | some q => (ScalarError.noOpeningQuotes q).reading span.front
  | none => ScalarError.unquoted.reading span

/-! ## Numbers -/

def sign : List Char → Bool × List Char
  | '+' :: r => (false, r)
  | '-' :: r => (true, r)
  | s => (false, s)

def signed (negative : Bool) (n : Nat) : Int := if negative then -n else n

def isDigitOf (radix : Nat) (c : Char) : Bool := (digit? radix c).isSome

def ungrouped (s : List Char) : List Char := s.filter (· != '_')

def decimalOf (s : List Char) : Nat := ofDigits 10 (s.filterMap (digit? 10))

def strayInside? (isDigit : Char → Bool) : List Char → Option (List Char)
  | [] => none
  | c :: r =>
    match r with
    | '_' :: d :: _ =>
      if isDigit c && (isDigit d || d = '_') then strayInside? isDigit r else some r
    | _ => strayInside? isDigit r

/-- Check that every underscore stands between two digits. The first character is looked at before
the last one, and both before the others. -/
def checkUnderscores (isDigit : Char → Bool) (span : Span) (s : List Char) : Reading Unit :=
  let stray (r : List Char) : Reading Unit :=
    ScalarError.strayUnderscore.reading ((span.tail r).first 1)
  if s.head? = some '_' then stray s
  else if s.getLast? = some '_' then stray ['_']
  else match strayInside? isDigit s with
    | some r => stray r
    | none => .ok ()

/-- An integer in radix 16, 8 or 2, behind the mark of the radix. Without any digits it is
illegible. -/
def integerInRadix (radix : Nat) (span : Span) (s : List Char) : Reading Value := do
  if (sign s).2.length < s.length then
    ScalarError.signBehindRadix.reading ((span.tail s).first 1)
  let r := s.dropWhile fun c => isDigitOf radix c || c = '_'
  if !r.isEmpty then
    (ScalarError.badDigit radix).reading (span.tail r).front
  checkUnderscores (isDigitOf radix) span s
  if s.isEmpty then return .illegible
  return .integer (ofDigits radix (s.filterMap (digit? radix)))

/-- A decimal integer that is `body` behind its sign. If it is grouped as integers of any radix
are, but not all of it is decimal digits, it is illegible. -/
def integer (span : Span) (s body : List Char) : Reading Value := do
  if body.head? = some '0' ∧ 1 < body.length then
    ScalarError.leadingZero.reading ((span.tail body).first 1)
  checkUnderscores (isDigitOf 16) span s
  if (ungrouped body).all Char.isDigit then
    return .integer (signed (sign s).1 (decimalOf body))
  return .illegible

def marksExponent (c : Char) : Bool := c = 'e' || c = 'E'

/-- The text behind digits and underscores. There has to be a digit; a zero does not lead others
unless it may. -/
def skipDigits (none : ScalarError) (zeroLeads : Bool) (span : Span) (s : List Char) :
    Reading (List Char) :=
  let (run, r) := s.span fun c => c.isDigit || c = '_'
  let count := run.countP Char.isDigit
  if count = 0 then none.reading (span.tail s).front
  else if 1 < count ∧ run.head? = some '0' ∧ !zeroLeads then
    ScalarError.leadingZero.reading ((span.tail s).first 1)
  else .ok r

def checkReal (span : Span) (s : List Char) : Reading Unit := do
  let r ← skipDigits .noMantissa false span s
  let r ← match r with
    | '.' :: r => skipDigits .noFraction true span r
    | r => pure r
  let r ← match r with
    | 'e' :: r | 'E' :: r => skipDigits .noExponent true span (sign r).2
    | r => pure r
  if !r.isEmpty then
    ScalarError.realGoesOn.reading (span.tail r)

def realOf (negative : Bool) (s : List Char) : Real :=
  let (mantissa, r) := s.span (!marksExponent ·)
  let (whole, fraction) := mantissa.span (· != '.')
  let (below, exponent) := sign (r.drop 1)
  let digits := whole ++ fraction.drop 1
  .finite negative (decimalOf digits) (signed below (decimalOf exponent) - (fraction.drop 1).length)

def real (span : Span) (s body : List Char) : Reading Value := do
  checkReal span body
  checkUnderscores Char.isDigit span s
  return .real (realOf (sign s).1 (ungrouped body))

/-- A decimal number, a date or a time of day, that is `body` behind its sign. What follows the
first digits decides which. -/
def decimal (span : Span) (s body : List Char) : Reading Value :=
  match body.dropWhile Char.isDigit with
  | [] => integer span s body
  | '-' :: _ | ':' :: _ =>
    match Moment.check s with
    | .ok () => .ok .moment
    | .error cause => (ScalarError.badMoment cause).reading span
  | r =>
    if r.contains ' ' then unquoted span s
    else if r.any fun c => c = '.' || marksExponent c then real span s body
    else if r.head? = some '_' then integer span s body
    else unquoted span s

def zero (span : Span) (s body : List Char) : Reading Value :=
  match body with
  | '0' :: mark :: r =>
    let inRadix (radix : Nat) (lower : Char) : Reading Value := do
      if body.length < s.length then ScalarError.signedRadix.reading (span.first 1)
      if mark ≠ lower then
        (ScalarError.upperCaseRadix (String.ofList ['0', lower])).reading
          ((span.tail body).first 2)
      integerInRadix radix span r
    match mark with
    | 'x' | 'X' => inRadix 16 'x'
    | 'o' | 'O' => inRadix 8 'o'
    | 'b' | 'B' => inRadix 2 'b'
    | 'd' | 'D' =>
      if body.length < s.length then ScalarError.signedRadix.reading (span.first 1)
      else ScalarError.decimalRadix.reading (span.first 2)
    | _ => decimal span s body
  | _ => decimal span s body

/-! ## Names -/

def named (span : Span) (s : List Char) (name : String) (value : Value) (cause : ScalarError) :
    Reading Value :=
  if s = name.toList then .ok value
  else if s.contains ' ' then unquoted span s
  else cause.reading span

def signedName (span : Span) (body : List Char) (name : String) (value : Value) : Reading Value :=
  if body = name.toList then .ok value
  else (ScalarError.notNamedReal name).reading (span.tail body)

def signedScalar (span : Span) (s body : List Char) : Reading Value :=
  match body with
  | '+' :: _ | '-' :: _ => ScalarError.secondSign.reading ((span.tail body).first 1)
  | '0' :: _ => zero span s body
  | 'i' :: _ | 'I' :: _ => signedName span body "inf" (.real (.infinite (sign s).1))
  | 'n' :: _ | 'N' :: _ => signedName span body "nan" (.real .nan)
  | '.' :: _ => real span s body
  | c :: _ => if c.isDigit || c = '_' then decimal span s body else unquoted span s
  | [] => unquoted span s

def scalar (span : Span) (s : List Char) : Reading Value :=
  match s with
  | '+' :: body | '-' :: body => signedScalar span s body
  | '0' :: _ => zero span s s
  | 't' :: _ | 'T' :: _ => named span s "true" (.boolean true) (.notBoolean true)
  | 'f' :: _ | 'F' :: _ => named span s "false" (.boolean false) (.notBoolean false)
  | 'i' :: _ | 'I' :: _ => named span s "inf" (.real (.infinite false)) (.notNamedReal "inf")
  | 'n' :: _ | 'N' :: _ => named span s "nan" (.real .nan) (.notNamedReal "nan")
  | '.' :: _ => real span s s
  | c :: _ => if c.isDigit || c = '_' then decimal span s s else unquoted span s
  | [] => unquoted span s

end Reflash.Toml
