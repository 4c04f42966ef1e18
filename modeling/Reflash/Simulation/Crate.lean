import Reflash.Bus
import Reflash.Simulation.Board
/-!
# A simulated crate

Simulated boards at the geographic addresses of their slots. Where no board sits the bus reads as
not driven, takes writes and answers no probe.
-/

namespace Reflash

structure SimulatedCrate where
  boards : Vector (Option SimulatedBoard) slotCount := Vector.replicate slotCount none

namespace SimulatedCrate

def board? (c : SimulatedCrate) (slot : Slot) : Option SimulatedBoard := c.boards[slot.index]

def insert (c : SimulatedCrate) (slot : Slot) (b : SimulatedBoard) : SimulatedCrate :=
  ⟨c.boards.set slot.index (some b)⟩

/-- Change the board in a slot, if there is one. The slot is cleared first, so that the board is
held only once while it changes. -/
def modify (c : SimulatedCrate) (slot : Slot) (f : SimulatedBoard → SimulatedBoard) :
    SimulatedCrate :=
  let found := c.board? slot
  ⟨(c.boards.set slot.index none).set slot.index (found.map f)⟩

def modifyAll (c : SimulatedCrate) (f : SimulatedBoard → SimulatedBoard) : SimulatedCrate :=
  ⟨c.boards.map fun b? => b?.map f⟩

def slots (c : SimulatedCrate) : List Slot := Slot.all.filter fun slot => (c.board? slot).isSome

def offset (address : UInt32) : UInt32 := address % slotWindow.toUInt32

def decode? (c : SimulatedCrate) (address : UInt32) : Option (Slot × SimulatedBoard) := do
  let slot ← Slot.ofAddress? address
  let b ← c.board? slot
  return (slot, b)

def read (c : SimulatedCrate) (address : UInt32) : UInt32 × SimulatedCrate :=
  match c.decode? address with
  | some (slot, b) =>
    let (value, b) := b.read (offset address)
    (value, c.insert slot b)
  | none => (notDriven, c)

def write (c : SimulatedCrate) (address value : UInt32) : SimulatedCrate :=
  match Slot.ofAddress? address with
  | some slot => c.modify slot fun b => b.write (offset address) value
  | none => c

def probe (c : SimulatedCrate) (address : UInt32) : Bool × SimulatedCrate :=
  match c.decode? address with
  | some (slot, b) =>
    let (answered, b) := b.probe
    (answered, c.insert slot b)
  | none => (false, c)

def remarks (c : SimulatedCrate) : Request → List Remark
  | .write address value =>
    match c.decode? address with
    | some (_, b) => (b.unknownOpcode? (offset address) value).toList.map .unknownOpcode
    | none => []
  | _ => []

instance : Bus SimulatedCrate where
  read := read
  write := write
  probe := probe
  remarks := remarks

/-- A crate of `count` boards in the lowest slots that do not run the target firmware and come
back from a reboot running it. There is one only for a number of boards that fits a crate. -/
def standard? (count : Nat) (target : Version) : Option SimulatedCrate :=
  if count = 0 ∨ slotCount < count then none
  else
    let stale := Version.ofCombined (~~~target.combined)
    let board : SimulatedBoard := { version := stale, rebootVersion := some target }
    some ((Slot.all.take count).foldl (fun c slot => c.insert slot board) {})

end SimulatedCrate
end Reflash
