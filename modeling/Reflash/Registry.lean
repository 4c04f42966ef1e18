import Reflash.Board
/-!
# The boards of a crate

A registry says which slots hold a board and where each board's registers start. It lists its
boards in slot order, and slot number 0 stands for the first of them.
-/

namespace Reflash

/-- Which slots hold a board, and at which base address. -/
structure Registry where
  base? : Slot → Option UInt32

namespace Registry

def empty : Registry := ⟨fun _ => none⟩

def insert (r : Registry) (slot : Slot) (base : UInt32) : Registry :=
  ⟨fun s => if s = slot then some base else r.base? s⟩

def boards (r : Registry) : List Board :=
  Slot.all.filterMap fun slot => (r.base? slot).map (Board.mk slot)

def slots (r : Registry) : List Slot := r.boards.map Board.slot

def size (r : Registry) : Nat := r.boards.length

def isEmpty (r : Registry) : Bool := r.boards.isEmpty

def mask (r : Registry) : UInt32 := r.slots.foldl (fun m slot => m ||| slot.mask) 0

def resolve (r : Registry) (n : Nat) : Except SlotError Board :=
  if n = 0 then
    match r.boards with
    | [] => .error .emptyCrate
    | board :: _ => .ok board
  else do
    let slot ← Slot.check n
    match r.base? slot with
    | some base => .ok ⟨slot, base⟩
    | none => .error (.vacant slot)

/-- A registry of the boards whose slots are kept, each looked up by its number. -/
def select (r : Registry) (keep : Slot → Bool) : Except SlotError Registry :=
  (r.slots.filter keep).foldlM (fun kept slot => do
    let board ← r.resolve slot.number
    return kept.insert slot board.base) empty

variable {σ ε : Type}

def discoverIn (idOffset : UInt32) (accept : UInt32 → Bool) :
    List Slot → Registry → Job σ ε Registry
  | [], found => pure found
  | slot :: rest, found => do
    match ← (Board.geographic slot).probe idOffset with
    | none => discoverIn idOffset accept rest found
    | some id =>
      if accept id then
        Job.remark (.boardFound slot id)
        discoverIn idOffset accept rest (found.insert slot slot.base)
      else
        Job.remark (.boardIgnored slot id)
        discoverIn idOffset accept rest found

/-- Probe the register at an offset in every slot, at its geographic address, and register the
boards whose value is accepted. -/
def discover (idOffset : UInt32) (accept : UInt32 → Bool) : Job σ ε Registry :=
  discoverIn idOffset accept Slot.all empty

end Registry
end Reflash
