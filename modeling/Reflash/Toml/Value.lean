import Reflash.Decimal.Shortest
import Reflash.Toml.SyntaxError
/-!
# Values of a configuration file

The values that a file in TOML can hold, with tables as lists of entries in file order. A table
remembers how it came about, because that decides what may still be added to it: a table can be
written down once only, and one that came about on the way to another can be completed in its own
way only.
-/

namespace Reflash.Toml

/-- A real number as written: not yet rounded to what a word can hold. -/
inductive Real where
  | finite (negative : Bool) (digits : Nat) (exponent : Int)
  | infinite (negative : Bool)
  | nan

/-- The text of a real number once it is rounded to double precision; none if it is too large. -/
def Real.text? : Real → Option String
  | finite negative digits exponent =>
    (Decimal.Binary.ofDecimal? digits exponent).map fun b =>
      (if negative then "-" else "") ++ b.text
  | infinite negative => some (if negative then "-inf" else "inf")
  | nan => some "NaN"

inductive Origin where
  /-- It has a header of its own. -/
  | header
  /-- It is named on the way to a table that has a header. -/
  | implied
  /-- It is named on the way to a dotted key. -/
  | dotted
  | inline
  deriving DecidableEq

inductive Value where
  | string (text : String)
  | integer (number : Int)
  /-- An integer whose digits do not make one. Nothing can be made of it. -/
  | illegible
  | real (number : Real)
  | boolean (value : Bool)
  /-- A date, a time of day, or both; only its form is checked. -/
  | moment
  | array (items : List (Located Value))
  | tables (items : List (Located (List (Located String × Located Value))))
  | table (origin : Origin) (entries : List (Located String × Located Value))

abbrev Table : Type := List (Located String × Located Value)

def Value.typeName : Value → String
  | string _ => "string"
  | integer _ | illegible => "integer"
  | real _ => "float"
  | boolean _ => "boolean"
  | moment => "datetime"
  | array _ | tables _ => "array"
  | table .inline _ => "inline table"
  | table _ _ => "table"

def TableError.at {α : Type} (cause : TableError) (key : Located String) : Except Fault α :=
  .error ⟨key.span, .table cause⟩

namespace Table

def get? (t : Table) (key : String) : Option (Located Value) :=
  (t.find? (·.1.value == key)).map (·.2)

def remove (t : Table) (key : String) : Table := t.filter (·.1.value != key)

/-- The table with another value for a key, at its place if it has one and else at the end. -/
def put (t : Table) (key : Located String) (value : Located Value) : Table :=
  if (t.get? key.value).isSome then
    t.map fun (k, v) => (k, if k.value = key.value then value else v)
  else t ++ [(key, value)]

/-- Change the table that a path leads to, making the tables that are not there yet. Nothing is
changed if the path leads through a value that cannot be extended, or if the change is refused. A
dotted path does not enter a table that has a header. -/
def alter (dotted : Bool) (change : Origin → Table → Except Fault Table) :
    List (Located String) → Origin → Table → Except Fault Table
  | [], origin, t => change origin t
  | key :: rest, _, t =>
    match t.get? key.value with
    | none => do
      let made := if dotted then .dotted else .implied
      return t.put key ⟨key.span, .table made (← alter dotted change rest made [])⟩
    | some ⟨span, .table origin inner⟩ =>
      if origin = .inline then
        (TableError.notExtensible (Value.table origin inner).typeName).at key
      else if dotted ∧ origin = .header then TableError.duplicateKey.at key
      else do return t.put key ⟨span, .table origin (← alter dotted change rest origin inner)⟩
    | some ⟨span, .tables items⟩ =>
      match items.reverse with
      | [] => TableError.duplicateKey.at key
      | last :: before => do
        let last := ⟨last.span, ← alter dotted change rest .header last.value⟩
        return t.put key ⟨span, .tables (before.reverse ++ [last])⟩
    | some ⟨_, v⟩ => (TableError.notExtensible v.typeName).at key

/-- Add an entry under a dotted key. A table on the way that is named by a header, too, cannot be
completed by dotted keys, and no key is given a value twice. -/
def insert (t : Table) (path : List (Located String)) (key : Located String)
    (value : Located Value) : Except Fault Table :=
  t.alter true (fun origin inner =>
    if (!path.isEmpty && origin ≠ .dotted) || (inner.get? key.value).isSome then
      TableError.duplicateKey.at key
    else .ok (inner.put key value)) path .header

end Table
end Reflash.Toml
