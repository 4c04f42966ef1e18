import Reflash.Host.CommandLine
import Reflash.Slot
import Reflash.Text.Blank
/-!
# Arguments

What the user asks for: one operation on one board, or an update of the whole crate, with the
file, the board's address and the options that go with it.
-/

namespace Reflash.Host

inductive Operation where
  | program
  | save
  | verify
  | id
  deriving DecidableEq

inductive Mode where
  | single (operation : Operation)
  | all
  deriving DecidableEq

def Mode.name : Mode → String
  | single .program => "Single(Program)"
  | single .save => "Single(Save)"
  | single .verify => "Single(Verify)"
  | single .id => "Single(Id)"
  | all => "All"

structure Arguments where
  program : Bool := false
  save : Bool := false
  verify : Bool := false
  id : Bool := false
  all : Bool := false
  force : Bool := false
  yes : Bool := false
  config : Option String := none
  device : Option String := none
  simulate : Option Nat := none
  file : Option String := none
  address : Nat := 0

inductive ArgumentError where
  | noMode
  | exclusiveModes
  | noFile
  | noBoardAt (address : Nat)
  deriving DecidableEq

def ArgumentError.message : ArgumentError → String
  | noMode => "pick one of -p, -s, -v, --id or --all"
  | exclusiveModes => "-p, -s, -v, --id and --all are exclusive"
  | noFile => "this needs a firmware image FILE"
  | noBoardAt address => s!"{Text.hex 0 address} isn't a slot's base address"

def word32? (radix : Nat) (s : List Char) : Option Nat :=
  let digits := match s with
    | '+' :: r => r
    | r => r
  let value (c : Char) : Option Nat :=
    let v :=
      if c.isDigit then c.toNat - '0'.toNat
      else if c.isLower then c.toNat - 'a'.toNat + 10
      else if c.isUpper then c.toNat - 'A'.toNat + 10
      else radix
    if v < radix then some v else none
  match digits.mapM value with
  | some (d :: rest) =>
    let n := (d :: rest).foldl (fun n d => n * radix + d) 0
    if n < UInt32.size then some n else none
  | _ => none

/-- The number that an address is written as: decimal, or in radix 16, 2 or 8 behind a mark of it
in lower case. Blanks around it and underscores behind its first character are left out. -/
def parseAddress? (text : String) : Option Nat :=
  let plain (s : List Char) := s.filter (· != '_')
  match Text.trim text.toList with
  | '_' :: _ => none
  | '0' :: 'x' :: r => word32? 16 (plain r)
  | '0' :: 'b' :: r => word32? 2 (plain r)
  | '0' :: 'o' :: r => word32? 8 (plain r)
  | s => word32? 10 (plain s)

namespace Arguments

def accepts : Parameter → String → Bool
  | .simulate, value => (word32? 10 value.toList).isSome
  | .address, value => (parseAddress? value).isSome
  | _, _ => true

def ofWords (words : List String) : Except UsageError Arguments := do
  let c ← CommandLine.read accepts words
  return {
    program := c.has .program
    save := c.has .save
    verify := c.has .verify
    id := c.has .id
    all := c.has .all
    force := c.has .force
    yes := c.has .yes
    config := c.value? .config
    device := c.value? .device
    simulate := (c.value? .simulate).bind fun value => word32? 10 value.toList
    file := c.value? .file
    address := ((c.value? .address).bind parseAddress?).getD 0 }

def modes (a : Arguments) : List Mode :=
  [(a.program, Mode.single .program), (a.save, .single .save), (a.verify, .single .verify),
    (a.id, .single .id), (a.all, .all)].filterMap fun (on, mode) => if on then some mode else none

def mode (a : Arguments) : Except ArgumentError Mode :=
  match a.modes with
  | [mode] => .ok mode
  | [] => .error .noMode
  | _ => .error .exclusiveModes

def neededFile (a : Arguments) : Except ArgumentError String :=
  match a.file with
  | some file => .ok file
  | none => .error .noFile

/-- The slot number that the address names: itself, or the slot whose window starts there. -/
def slotNumber (a : Arguments) : Except ArgumentError Nat :=
  if a.address ≤ slotCount then .ok a.address
  else match Slot.all.find? fun slot => slot.base.toNat = a.address with
    | some slot => .ok slot.number
    | none => .error (.noBoardAt a.address)

end Arguments
end Reflash.Host
