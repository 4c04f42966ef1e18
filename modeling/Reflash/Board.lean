import Reflash.Engine
/-!
# Boards

A board is reached through its slot and the base address of its registers. A register's address
is the sum of base and offset; a sum beyond the last address of the bus stops the routine.
-/

namespace Reflash

/-- A board: where it sits and where its registers start. -/
structure Board where
  slot : Slot
  base : UInt32
  deriving DecidableEq

namespace Board

variable {σ ε : Type}

def geographic (slot : Slot) : Board := ⟨slot, slot.base⟩

def text (b : Board) : String :=
  s!"Board \x7b slot: Slot({b.slot.number}), base: {Text.hex 6 b.base.toNat} \x7d"

def address? (b : Board) (offset : UInt32) : Option UInt32 :=
  if b.base.toNat + offset.toNat < UInt32.size then some (b.base + offset) else none

def address (b : Board) (offset : UInt32) : Job σ ε UInt32 :=
  match b.address? offset with
  | some address => pure address
  | none => Routine.offBus

def read (b : Board) (offset : UInt32) : Job σ ε UInt32 := do
  Job.ask (.read (← b.address offset))

def write (b : Board) (offset value : UInt32) : Job σ ε Unit := do
  Job.ask (.write (← b.address offset) value)

def probe (b : Board) (offset : UInt32) : Job σ ε (Option UInt32) := do
  let address ← b.address offset
  if ← Job.ask (.probe address) then
    return some (← Job.ask (.read address))
  else
    return none

/-- The firmware that the board reports: the lower halves of both version registers. -/
def readVersion (b : Board) : Job σ ε Version := do
  let control ← b.read Register.controlVersion
  let processing ← b.read Register.processingVersion
  return ⟨control.toUInt16, processing.toUInt16⟩

end Board
end Reflash
