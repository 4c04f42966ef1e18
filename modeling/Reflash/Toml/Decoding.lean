import Reflash.Text.Quoted
import Reflash.Toml.Document
/-!
# Taking values for what they should be

A value of a document is taken for a number of some width, a path, a list or a record. What is
wrong with it is told in a few fixed forms, and shows at the value or at the key that it is wrong
with.
-/

namespace Reflash.Toml

inductive DecodeError where
  | missingField (name : String)
  | unknownField (name : String) (known : List String)
  | wrongType (found expected : String)
  | wrongNumber (number : Int) (expected : String)
  | wrongLength (length : Nat) (expected : String)
  /-- An integer that is too large for any type, or illegible. -/
  | integerOverflow
  | realOverflow
  deriving DecidableEq

namespace DecodeError

def choice : List String → String
  | [name] => ticked name
  | [first, second] => ticked first ++ " or " ++ ticked second
  | names => "one of " ++ String.intercalate ", " (names.map ticked)

def message : DecodeError → String
  | missingField name => "missing field " ++ ticked name
  | unknownField name known => "unknown field " ++ ticked name ++ ", expected " ++ choice known
  | wrongType found expected => "invalid type: " ++ found ++ ", expected " ++ expected
  | wrongNumber number expected =>
    "invalid value: integer " ++ ticked (toString number) ++ ", expected " ++ expected
  | wrongLength length expected => s!"invalid length {length}, expected " ++ expected
  | integerOverflow => "integer number overflowed"
  | realOverflow => "floating-point number overflowed"

end DecodeError

abbrev Decoded (α : Type) : Type := Except (Located DecodeError) α

abbrev Decoder (α : Type) : Type := Located Value → Decoded α

def fitsWord (n : Int) : Bool := -0x8000000000000000 ≤ n && n < 0x10000000000000000

def fitsSigned (n : Int) : Bool :=
  -0x80000000000000000000000000000000 ≤ n && n < 0x80000000000000000000000000000000

def fitsUnsigned (n : Int) : Bool := 0 ≤ n && n < 0x100000000000000000000000000000000

namespace Value

/-- What a value is, for a message. There is no telling what a number is that is too large for any
type, or illegible. -/
def describe : Value → Except DecodeError String
  | string text => .ok ("string " ++ Text.quoted text)
  | integer n =>
    let shown := "integer " ++ ticked (toString n)
    if fitsWord n then .ok shown
    else if fitsSigned n then .ok (shown ++ " as i128")
    else if fitsUnsigned n then .ok (shown ++ " as u128")
    else .error .integerOverflow
  | illegible => .error .integerOverflow
  | real x => match x.text? with
    | some text => .ok ("floating point " ++ ticked text)
    | none => .error .realOverflow
  | boolean b => .ok ("boolean " ++ ticked (toString b))
  | array _ | tables _ => .ok "sequence"
  | moment | table _ _ => .ok "map"

def mismatch (v : Value) (expected : String) : DecodeError :=
  match v.describe with
  | .ok found => .wrongType found expected
  | .error cause => cause

def items? : Value → Option (List (Located Value))
  | array items => some items
  | tables items => some (items.map (·.map (table .header)))
  | _ => none

end Value

namespace Decoder

variable {α : Type}

def fail (v : Located Value) (cause : DecodeError) : Decoded α := .error ⟨v.span, cause⟩

def natural (bound : Nat) (expected : String) : Decoder Nat := fun v =>
  match v.value with
  | .integer n =>
    if !fitsWord n then fail v (v.value.mismatch expected)
    else if 0 ≤ n ∧ n < bound then .ok n.toNat
    else fail v (.wrongNumber n expected)
  | _ => fail v (v.value.mismatch expected)

def path : Decoder String := fun v =>
  match v.value with
  | .string text => .ok text
  | _ => fail v (v.value.mismatch "path string")

def list (item : Decoder α) : Decoder (List α) := fun v =>
  match v.value.items? with
  | some items => items.mapM item
  | none => fail v (v.value.mismatch "a sequence")

end Decoder

/-- A field of a record that is read into a `ρ`: its name, and how its value gets there. -/
structure Field (ρ : Type) where
  name : String
  take : ρ → Decoder ρ

namespace Field

variable {ρ α : Type}

def ofValue (name : String) (decode : Decoder α) (store : ρ → α → ρ) : Field ρ :=
  ⟨name, fun r v => do return store r (← decode v)⟩

/-- The key under which a date or a time shows where a record is expected. -/
def momentKey : String := "$__toml_private_datetime"

def unknown (fields : List (Field ρ)) (name : String) : DecodeError :=
  .unknownField name (fields.map Field.name)

def ofEntries (fields : List (Field ρ)) (r : ρ) (entries : Table) : Decoded ρ :=
  entries.foldlM (fun r (key, v) =>
    match fields.find? fun field => field.name == key.value with
    | some field => field.take r v
    | none => .error ⟨key.span, unknown fields key.value⟩) r

/-- The record of an array's items, which are taken for the fields in order. Items left over are
not looked at; if there are too few, `short` is wrong. -/
def ofItems (short : Located DecodeError) (r : ρ) :
    List (Field ρ) → List (Located Value) → Decoded ρ
  | [], _ => .ok r
  | _ :: _, [] => .error short
  | field :: fields, v :: items => do ofItems short (← field.take r v) fields items

def record (expected : String) (fields : List (Field ρ)) (r : ρ) : Decoder ρ := fun v =>
  match v.value with
  | .table _ entries => ofEntries fields r entries
  | .moment => Decoder.fail v (unknown fields momentKey)
  | _ =>
    match v.value.items? with
    | some items =>
      let all := expected ++ s!" with {fields.length} elements"
      ofItems ⟨v.span, .wrongLength items.length all⟩ r fields items
    | none => Decoder.fail v (v.value.mismatch expected)

def required (span : Span) (name : String) : Option α → Decoded α
  | some a => .ok a
  | none => .error ⟨span, .missingField name⟩

end Field
end Reflash.Toml
