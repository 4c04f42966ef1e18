import Reflash.Toml.Token
/-!
# Texts that are no document

Why a text is no document, and the wording of it: what is wrong, and often what belongs there
instead.
-/

namespace Reflash.Toml

def ticked (name : String) : String := "\x60" ++ name ++ "\x60"

def expecting (fault : String) (expected : List String) : String :=
  fault ++ ", expected " ++ if expected.isEmpty then "nothing" else ", ".intercalate expected

/-! ## Statements -/

inductive Bracketed where
  | table
  | arrayTable
  | array
  | inlineTable
  deriving DecidableEq

namespace Bracketed

def name : Bracketed → String
  | table => "table"
  | arrayTable => "array table"
  | array => "array"
  | inlineTable => "inline table"

def opening : Bracketed → String
  | table | arrayTable | array => "["
  | inlineTable => "\x7b"

end Bracketed

inductive Awaited where
  | key
  | equals
  | value
  | comma
  deriving DecidableEq

def Awaited.name : Awaited → String
  | key => "key"
  | equals => ticked "="
  | value => "value"
  | comma => ticked ","

inductive StructureError where
  | loneReturn
  | controlInComment
  | unopened (what : Bracketed)
  | unclosed (what : Bracketed) (missing : String)
  | noEquals
  | noEqualsBehindDot
  | noKey
  | lineGoesOn
  | secondEquals
  | tooDeep
  | commaInArray
  | equalsInArray
  | noCommaInArray
  | commaInTable (awaited : Awaited)
  | equalsInTable (awaited : Awaited)
  /-- A bracket opens where a key or a comma belongs. -/
  | noKeyInTable (awaited : Awaited)
  | noEqualsInTable
  | noCommaInTable
  /-- A bracket closes that none has opened. -/
  | bracketInTable (awaited : Awaited)
  deriving DecidableEq

def StructureError.message : StructureError → String
  | loneReturn => expecting "carriage return must be followed by newline" ["newline"]
  | controlInComment => expecting "invalid comment character" ["printable characters"]
  | unopened .table => expecting "missing table open" [ticked "["]
  | unopened what => expecting ("missing " ++ what.name ++ " opening") [ticked what.opening]
  | unclosed what missing => expecting ("unclosed " ++ what.name) [ticked missing]
  | noEquals => expecting "key with no value" [ticked "="]
  | noEqualsBehindDot => expecting "missing value for key" [ticked "="]
  | noKey => expecting "invalid key" ["key"]
  | lineGoesOn => expecting "unexpected key or value" ["newline", ticked "#"]
  | secondEquals => expecting ("extra " ++ ticked "=") []
  | tooDeep => "cannot recurse further; max recursion depth met"
  | commaInArray => expecting "extra comma in array" ["value"]
  | equalsInArray => expecting ("unexpected " ++ ticked "=" ++ " in array") ["value", ticked "]"]
  | noCommaInArray => expecting "missing comma between array elements" [ticked ","]
  | commaInTable awaited => expecting "extra comma in inline table" [awaited.name]
  | equalsInTable awaited => expecting "extra assignment between key-value pairs" [awaited.name]
  | noKeyInTable awaited => expecting "missing key for inline table element" [awaited.name]
  | noEqualsInTable => expecting "missing assignment between key-value pairs" [ticked "="]
  | noCommaInTable => expecting "missing comma between key-value pairs" [ticked ","]
  | bracketInTable awaited => expecting "invalid inline table element" [awaited.name]

/-! ## Strings -/

def Quotes.name : Quotes → String
  | .double => "basic string"
  | .single => "literal string"
  | .tripleDouble => "multi-line basic string"
  | .tripleSingle => "multi-line literal string"

inductive StringError where
  | unclosed (quotes : Quotes)
  /-- A control character stands for itself. -/
  | control (quotes : Quotes)
  | loneReturn
  /-- Something other than a line end behind a backslash and blanks. -/
  | noLineEnd (quotes : Quotes)
  | badEscape
  | tooFewDigits
  | badCodePoint
  deriving DecidableEq

namespace StringError

def allowed : Quotes → List String
  | .double => ["non-double-quote visible characters", ticked "\\"]
  | .single => ["non-single-quote visible characters"]
  | .tripleDouble => [ticked "\\", "characters"]
  | .tripleSingle => ["non-single-quote characters"]

def message : StringError → String
  | unclosed quotes =>
    expecting ("invalid " ++ quotes.name) [ticked (String.ofList quotes.marks)]
  | control quotes => expecting ("invalid " ++ quotes.name) (allowed quotes)
  | loneReturn => StructureError.loneReturn.message
  | noLineEnd quotes => expecting ("invalid " ++ quotes.name) ["newline"]
  | badEscape =>
    expecting "missing escaped value"
      (["b", "e", "f", "n", "r", "\\", "\"", "x", "u", "U"].map ticked)
  | tooFewDigits => expecting "too few unicode value digits" ["unicode hexadecimal value"]
  | badCodePoint => expecting "invalid value" ["unicode hexadecimal value"]

end StringError

/-! ## Keys -/

inductive KeyError where
  | empty
  | notBare
  | spansLines (quotes : Quotes)
  | tooManyParts
  deriving DecidableEq

def KeyError.message : KeyError → String
  | empty => expecting "unquoted keys cannot be empty" bareCharacters
  | notBare => expecting "invalid unquoted key" bareCharacters
  | spansLines quotes =>
    expecting ("keys cannot be " ++ quotes.name ++ "s") [Quotes.double.name, Quotes.single.name]
  | tooManyParts => "recursion limit"
where
  bareCharacters : List String := ["letters", "numbers", ticked "-", ticked "_"]

/-! ## Scalars -/

inductive MomentPart where
  | date
  | time
  | offset
  /-- What leads from a date to a time. -/
  | link
  | whole
  deriving DecidableEq

def MomentPart.name : MomentPart → String
  | date => "date"
  | time => "time"
  | offset => "offset"
  | link => "date-time"
  | whole => "datetime"

inductive MomentError where
  | lacking (part : MomentPart) (expected : String)
  | goesOn
  deriving DecidableEq

def MomentError.message : MomentError → String
  | lacking part expected => expecting ("invalid " ++ part.name) [expected]
  | goesOn => "invalid " ++ MomentPart.whole.name

inductive ScalarError where
  | unquoted
  | noOpeningQuotes (quotes : Quotes)
  | notBoolean (nearest : Bool)
  | notNamedReal (nearest : String)
  | secondSign
  | signedRadix
  | upperCaseRadix (mark : String)
  /-- A mark of a radix that needs none. -/
  | decimalRadix
  | signBehindRadix
  | badDigit (radix : Nat)
  | strayUnderscore
  | leadingZero
  | noMantissa
  | noFraction
  | noExponent
  | realGoesOn
  | badMoment (cause : MomentError)
  deriving DecidableEq

def radixName (radix : Nat) : String :=
  if radix = 16 then "hexadecimal" else if radix = 8 then "octal" else "binary"

def ScalarError.message : ScalarError → String
  | unquoted => expecting "string values must be quoted" [Quotes.single.name]
  | noOpeningQuotes quotes =>
    expecting "missing opening quote" [ticked (String.ofList quotes.marks)]
  | notBoolean nearest => expecting "invalid boolean" [ticked (toString nearest)]
  | notNamedReal nearest => expecting "invalid float" [ticked nearest]
  | secondSign => expecting "redundant numeric sign" []
  | signedRadix => expecting "integers with a radix cannot be signed" []
  | upperCaseRadix mark => expecting "radix must be lowercase" [ticked mark]
  | decimalRadix => expecting "redundant integer number prefix" []
  | signBehindRadix => expecting "unexpected sign" []
  | badDigit radix => "invalid " ++ radixName radix ++ " number"
  | strayUnderscore => expecting (ticked "_" ++ " may only go between digits") []
  | leadingZero => expecting "unexpected leading zero" []
  | noMantissa => expecting "invalid mantissa" ["digits"]
  | noFraction => expecting "invalid fraction" ["digits"]
  | noExponent => expecting "invalid exponent" ["digits"]
  | realGoesOn => expecting "invalid float" []
  | badMoment cause => cause.message

/-! ## Tables -/

inductive TableError where
  | duplicateKey
  /-- A path leads through a value of some type that nothing can be added to. -/
  | notExtensible (type : String)
  deriving DecidableEq

def TableError.message : TableError → String
  | duplicateKey => "duplicate key"
  | notExtensible type => "cannot extend value of type " ++ type ++ " with a dotted key"

/-! ## Faults -/

inductive SyntaxError where
  | structural (cause : StructureError)
  | key (cause : KeyError)
  | quoted (cause : StringError)
  | scalar (cause : ScalarError)
  | table (cause : TableError)
  deriving DecidableEq

def SyntaxError.message : SyntaxError → String
  | structural cause => cause.message
  | key cause => cause.message
  | quoted cause => cause.message
  | scalar cause => cause.message
  | table cause => cause.message

abbrev Fault : Type := Located SyntaxError

/-- What is read of a piece of text, or the first thing that is wrong with it. -/
abbrev Reading (α : Type) : Type := Except Fault α

end Reflash.Toml
