import Reflash.Toml.Scalar
/-!
# Statements

A document is a sequence of statements, one to a line: entries, and headers that say to which
table the entries behind them belong. Reading goes two ways about faults. Where a bracket, a comma
or an equals sign is missing or too much, there are no statements at all. What is wrong inside of
a string, a word or a key is kept where it is found, and shows only when all statements are told
apart. A part of a key or a value that is missing is such a fault, too, if what comes in its place
is something that could follow it; a header then ends with its line.
-/

namespace Reflash.Toml

open Token Tokens

/-- How deep arrays and inline tables can be nested, and how many parts a key can have. -/
def maxDepth : Nat := 80

abbrev Reader (α : Type) : Type := Tokens → Except Fault (α × Tokens)

def StructureError.at {α : Type} (cause : StructureError) (span : Span) : Except Fault α :=
  .error ⟨span, .structural cause⟩

/-! ## Keys -/

def isBare (c : Char) : Bool := c.isAlphanum || c = '_' || c = '-'

def KeyError.reading {α : Type} (cause : KeyError) (span : Span) : Reading α :=
  .error ⟨span, .key cause⟩

def keyPart (span : Span) : Token → Option (Reading String)
  | quoted quotes text =>
    some (if quotes.spansLines then (KeyError.spansLines quotes).reading span
      else quotes.content span text)
  | word text =>
    let foreign := text.dropWhile isBare
    some (if foreign.isEmpty then .ok (String.ofList text)
      else KeyError.notBare.reading (span.tail foreign).front)
  | _ => none

/-- The path that a key spells: the parts in front of the last one, and the last. -/
abbrev Path : Type := List (Located String) × Located String

structure Key where
  path : Reading Path
  first : Span
  /-- Where its last part is, if there is anything where it belongs. -/
  last? : Option Span

/-- A key; dots lead from one part to the next, and blanks may stand around them. -/
def keyParts : (fuel : Nat) → Tokens → Key × Tokens
  | 0, s => (⟨KeyError.empty.reading (ahead s).front, (ahead s).front, none⟩, s)
  | fuel + 1, s =>
    let s := skipBlank s
    let (part, span, last?, r) := match s with
      | ⟨span, t⟩ :: r =>
        match keyPart span t with
        | some part => (part, span, some span, r)
        | none => (KeyError.empty.reading span.front, span.front, none, s)
      | [] => (KeyError.empty.reading (ahead s), (ahead s), none, s)
    let part : Reading (Located String) := part.map (⟨span, ·⟩)
    match skipBlank r with
    | ⟨_, dot⟩ :: r =>
      let (more, r) := keyParts fuel r
      let path : Reading Path := do
        let part ← part
        let (path, last) ← more.path
        return (part :: path, last)
      (⟨path, span, more.last?⟩, r)
    | r => (⟨part.map ([], ·), span, last?⟩, r)

def key (s : Tokens) : Key × Tokens :=
  let (key, r) := keyParts (s.length + 1) s
  let path : Reading Path := do
    let (path, last) ← key.path
    if maxDepth ≤ path.length then KeyError.tooManyParts.reading key.first
    return (path, last)
  ({ key with path }, r)

/-! ## Values -/

/-- A value that was read, perhaps with something wrong inside of it. -/
abbrev ValueReading : Type := Reading (Located Value)

abbrev Enclosed (α : Type) : Type := Reading α × Span

/-- The items of an array, behind its opening bracket. The last item may be followed by a comma. -/
def items (item : Reader ValueReading) : (fuel : Nat) → Reader (Enclosed (List (Located Value)))
  | 0, s => (StructureError.unclosed .array "]").at (ahead s)
  | fuel + 1, s =>
    match skipVoid s with
    | ⟨span, closeBracket⟩ :: r => .ok ((.ok [], span), r)
    | ⟨span, comma⟩ :: _ => StructureError.commaInArray.at span.front
    | ⟨span, equals⟩ :: _ => StructureError.equalsInArray.at span.front
    | ⟨span, closeBrace⟩ :: _ => (StructureError.unopened .inlineTable).at span.front
    | ⟨span, endOfText⟩ :: _ => (StructureError.unclosed .array "]").at span
    | s => do
      let (first, r) ← item s
      match skipVoid r with
      | ⟨_, comma⟩ :: r =>
        let ((more, close), r) ← items item fuel r
        return ((do return (← first) :: (← more), close), r)
      | ⟨span, closeBracket⟩ :: r => return ((first.map ([·]), span), r)
      | ⟨span, equals⟩ :: _ => StructureError.equalsInArray.at span.front
      | ⟨span, endOfText⟩ :: _ => (StructureError.unclosed .array "]").at span
      | s => StructureError.noCommaInArray.at (ahead s).front

def strayInTable {α : Type} (awaited : Awaited) (s : Tokens) : Except Fault α :=
  match s with
  | ⟨span, t⟩ :: _ =>
    let opensTable : StructureError :=
      if awaited = .equals then .noEqualsInTable else .noKeyInTable awaited
    let goesOn : StructureError :=
      if awaited = .equals then .noEqualsInTable else .noCommaInTable
    match t with
    | endOfText => (StructureError.unclosed .inlineTable "\x7d").at span
    | comma => (StructureError.commaInTable awaited).at span.front
    | equals => (StructureError.equalsInTable awaited).at span.front
    | openBrace | openBracket => opensTable.at span.front
    | closeBracket => (StructureError.bracketInTable awaited).at span.front
    | _ => goesOn.at span.front
  | [] => (StructureError.unclosed .inlineTable "\x7d").at (ahead s)

def missingValue (s : Tokens) : ValueReading := ScalarError.unquoted.reading (ahead s).front

/-- The value of an entry of an inline table. It can be missing from the last one. -/
def entryValue (value : Reader ValueReading) (s : Tokens) : Except Fault (ValueReading × Tokens) :=
  match s with
  | ⟨_, comma⟩ :: _ | ⟨_, equals⟩ :: _ | ⟨_, endOfText⟩ :: _ => strayInTable .value s
  | ⟨_, closeBrace⟩ :: _ => .ok (missingValue s, s)
  | s => value s

def startsEntry : Tokens → Bool
  | ⟨_, equals⟩ :: _ | ⟨_, dot⟩ :: _ | ⟨_, quoted _ _⟩ :: _ | ⟨_, word _⟩ :: _ => true
  | _ => false

/-- The entries of an inline table, behind its opening brace, added to those before. The last
entry may be followed by a comma, and lines may end anywhere but inside of a key. From the last
entry its value can be missing, or its equals sign as well. -/
def entries (value : Reader ValueReading) (t : Reading Table) :
    (fuel : Nat) → Reader (Enclosed Table)
  | 0, s => strayInTable .key s
  | fuel + 1, s =>
    match skipVoid s with
    | ⟨span, closeBrace⟩ :: r => .ok ((t, span), r)
    | s => do
      if !startsEntry s then strayInTable .key s
      let (name, r) := key s
      match skipVoid r with
      | ⟨_, equals⟩ :: r =>
        let (v, r) ← entryValue value (skipVoid r)
        let t : Reading Table := do
          let t ← t
          let (path, last) ← name.path
          t.insert path last (← v)
        match skipVoid r with
        | ⟨_, comma⟩ :: r => entries value t fuel r
        | ⟨span, closeBrace⟩ :: r => return ((t, span), r)
        | r => strayInTable .comma r
      | ⟨span, closeBrace⟩ :: r =>
        let t : Reading Table := do
          let _ ← t
          let _ ← name.path
          ScalarError.unquoted.reading span.front
        return ((t, span), r)
      | r => strayInTable .equals r

/-- The rest of an unquoted scalar and where it ends: words and dots right behind it, and words
behind a blank. -/
def restOfScalar (stop : Nat) : Tokens → List Char × Nat × Tokens
  | ⟨span, word text⟩ :: r =>
    let (more, r) := restOfScalar span.stop r
    (text ++ more, r)
  | ⟨span, dot⟩ :: r =>
    let (more, r) := restOfScalar span.stop r
    ('.' :: more, r)
  | ⟨_, blank text⟩ :: ⟨span, word text'⟩ :: r =>
    let (more, r) := restOfScalar span.stop r
    (text ++ text' ++ more, r)
  | s => ([], stop, s)

def simpleValue (s : Tokens) : Except Fault (ValueReading × Tokens) :=
  match s with
  | ⟨span, quoted quotes text⟩ :: r =>
    .ok ((quotes.content span text).map fun text => ⟨span, .string text⟩, r)
  | ⟨span, equals⟩ :: _ => StructureError.secondEquals.at span
  | ⟨span, closeBrace⟩ :: _ => (StructureError.unopened .inlineTable).at span.front
  | ⟨span, closeBracket⟩ :: _ => (StructureError.unopened .array).at span.front
  | s =>
    let start := (ahead s).start
    let (text, stop, r) := restOfScalar start s
    let span : Span := ⟨start, stop⟩
    .ok ((scalar span text).map (⟨span, ·⟩), r)

def value : (depth : Nat) → Reader ValueReading
  | 0, s =>
    match s with
    | ⟨span, openBracket⟩ :: _ | ⟨span, openBrace⟩ :: _ => StructureError.tooDeep.at span
    | s => simpleValue s
  | depth + 1, s =>
    match s with
    | ⟨span, openBracket⟩ :: r => do
      let ((l, close), r) ← items (value depth) (r.length + 1) r
      return (l.map fun l => ⟨span.through close, .array l⟩, r)
    | ⟨span, openBrace⟩ :: r => do
      let ((t, close), r) ← entries (value depth) (.ok []) (r.length + 1) r
      return (t.map fun t => ⟨span.through close, .table .inline t⟩, r)
    | s => simpleValue s

/-! ## Statements -/

inductive Statement where
  | header (ofArray : Bool) (span : Span) (path : Reading Path)
  | entry (path : Reading Path) (value : ValueReading)

namespace Statement

/-- A header, from its opening brackets on to its end. If the last part of its key is missing, so
can its closing brackets be, and nothing is made of the rest of the line. -/
def readHeader (ofArray : Bool) (opening : Span) (s : Tokens) :
    Except Fault (Statement × Tokens) :=
  let (name, r) := key s
  let whole (close : Span) := header ofArray (opening.through close) name.path
  match ofArray, r with
  | false, ⟨close, closeBracket⟩ :: r | true, ⟨_, closeBracket⟩ :: ⟨close, closeBracket⟩ :: r =>
    .ok (whole close, r)
  | true, ⟨span, closeBracket⟩ :: _ => (StructureError.unclosed .arrayTable "]").at span.back
  | _, r =>
    match name.last? with
    | some last =>
      if ofArray then (StructureError.unclosed .arrayTable "]]").at last.back
      else (StructureError.unclosed .table "]").at last.back
    | none => .ok (whole opening, skipLine r)

def lineValue (s : Tokens) : Except Fault (ValueReading × Tokens) :=
  match s with
  | ⟨_, lineEnd⟩ :: _ | ⟨_, loneReturn⟩ :: _ | ⟨_, comment _⟩ :: _ | ⟨_, endOfText⟩ :: _
  | ⟨_, comma⟩ :: _ => .ok (missingValue s, s)
  | s => value maxDepth s

def readEntry (s : Tokens) : Except Fault (Statement × Tokens) := do
  match key s with
  | (name, ⟨_, equals⟩ :: r) =>
    let (v, r) ← lineValue (skipBlank r)
    return (entry name.path v, r)
  | (_, r) =>
    match s with
    | ⟨_, dot⟩ :: _ => StructureError.noEqualsBehindDot.at (ahead r).front
    | _ => StructureError.noEquals.at (ahead r).front

def read (s : Tokens) : Except Fault (Statement × Tokens) :=
  match s with
  | ⟨first, openBracket⟩ :: ⟨_, openBracket⟩ :: r => readHeader true first r
  | ⟨first, openBracket⟩ :: r => readHeader false first r
  | ⟨span, closeBracket⟩ :: _ => (StructureError.unopened .table).at span.front
  | ⟨span, comma⟩ :: _ | ⟨span, openBrace⟩ :: _ | ⟨span, closeBrace⟩ :: _ =>
    StructureError.noKey.at span.front
  | s => readEntry s

def endLine (s : Tokens) : Except Fault Tokens :=
  match skipBlank s with
  | ⟨_, lineEnd⟩ :: r | ⟨_, loneReturn⟩ :: r => .ok r
  | ⟨_, comment _⟩ :: r => .ok r
  | ⟨span, endOfText⟩ :: r => .ok (⟨span, endOfText⟩ :: r)
  | s => StructureError.lineGoesOn.at (ahead s).front

def readAll : (fuel : Nat) → Tokens → Except Fault (List Statement)
  | 0, _ => .ok []
  | fuel + 1, s =>
    match skipVoid s with
    | [] | ⟨_, endOfText⟩ :: _ => .ok []
    | s => do
      let (first, r) ← read s
      return first :: (← readAll fuel (← endLine r))

end Statement
end Reflash.Toml
