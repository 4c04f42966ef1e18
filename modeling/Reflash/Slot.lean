import Reflash.Text.Numeral
/-!
# Slots of a crate

A crate has 21 slots, numbered from 1. Under geographic addressing each slot decodes a window of
512 KiB at its number times the window's size, so a slot number is also a base address.
-/

namespace Reflash

def slotCount : Nat := 21

def slotWindow : Nat := 0x80000

/-- A slot number that has been checked. -/
structure Slot where
  /-- Slots count from one. -/
  number : Nat
  one_le : 1 ≤ number := by omega
  le_count : number ≤ 21 := by omega
  deriving DecidableEq

inductive SlotError where
  | outOfRange (number : Nat)
  /-- The slot is known to hold no board. -/
  | vacant (slot : Slot)
  /-- The first board was asked for, and there is none. -/
  | emptyCrate
  deriving DecidableEq

namespace SlotError

def message : SlotError → String
  | outOfRange n => s!"slot {n} is out of range (1..={slotCount})"
  | vacant slot => s!"no board initialized in slot {slot.number}"
  | emptyCrate => "no boards found in crate"

end SlotError

namespace Slot

def ofNat? (n : Nat) : Option Slot :=
  if h : 1 ≤ n ∧ n ≤ 21 then some ⟨n, h.1, h.2⟩ else none

def check (n : Nat) : Except SlotError Slot :=
  match ofNat? n with
  | some slot => .ok slot
  | none => .error (.outOfRange n)

def first : Slot := ⟨1, by omega, by omega⟩

def all : List Slot := (List.range' 1 slotCount).filterMap ofNat?

/-- The slot's bit in a mask over the crate: bit `n` is slot `n`. -/
def mask (slot : Slot) : UInt32 := 1 <<< slot.number.toUInt32

def base (slot : Slot) : UInt32 := slot.number.toUInt32 <<< 19

def ofAddress? (address : UInt32) : Option Slot := ofNat? (address.toNat / slotWindow)

def index (slot : Slot) : Fin slotCount :=
  ⟨slot.number - 1, by have := slot.one_le; have := slot.le_count; unfold slotCount; omega⟩

def column (slot : Slot) : String := Text.column slot.number

end Slot
end Reflash
