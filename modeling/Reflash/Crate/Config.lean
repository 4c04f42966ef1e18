import Reflash.Slot
import Reflash.Update.Config
/-!
# Crate configuration

Which device reaches the bus of a crate, which slots are looked at, and how its boards are
updated. A description gives some of this and leaves the rest to the defaults.
-/

namespace Reflash

structure CrateConfig where
  device : String := "/dev/bus/vme/m0"
  /-- The slots to look at in ascending order; no slots stand for all of them. -/
  slots : List Slot := []
  /-- Without a description no firmware is known to be good, so the target is one that no board
  is meant to run. -/
  update : UpdateConfig := { target := ⟨0, 0⟩ }

def CrateConfig.covers (c : CrateConfig) (slot : Slot) : Bool :=
  c.slots.isEmpty || c.slots.contains slot

structure BudgetChoices where
  readyTries : Option Nat := none
  commandReadyTries : Option Nat := none
  eraseTries : Option Nat := none
  pageTries : Option Nat := none
  rebootTries : Option Nat := none

def BudgetChoices.over (c : BudgetChoices) (b : Budgets) : Budgets where
  readyTries := c.readyTries.getD b.readyTries
  commandReadyTries := c.commandReadyTries.getD b.commandReadyTries
  eraseTries := c.eraseTries.getD b.eraseTries
  pageTries := c.pageTries.getD b.pageTries
  rebootTries := c.rebootTries.getD b.rebootTries

/-- The timings that a description gives, in milliseconds. -/
structure TimingChoices where
  resetSettle : Option Nat := none
  writePollInterval : Option Nat := none
  rebootSettle : Option Nat := none
  rebootPollInterval : Option Nat := none

def TimingChoices.over (c : TimingChoices) (t : Timing) : Timing where
  resetSettle := c.resetSettle.getD t.resetSettle
  writePollInterval := c.writePollInterval.getD t.writePollInterval
  rebootSettle := c.rebootSettle.getD t.rebootSettle
  rebootPollInterval := c.rebootPollInterval.getD t.rebootPollInterval

/-- A crate as described, not yet checked. -/
structure CrateDescription where
  device : Option String := none
  slots : List Nat := []
  target : Version
  imageSizeBytes : Option Nat := none
  budgets : BudgetChoices := {}
  timing : TimingChoices := {}

inductive DescriptionError where
  | badSlot (cause : SlotError)
  | listedTwice (slot : Slot)
  /-- No whole number of words, none at all, or more than the ROM holds. -/
  | badImageSize
  deriving DecidableEq

def DescriptionError.message : DescriptionError → String
  | badSlot cause => cause.message
  | listedTwice slot => s!"slot {slot.number} listed twice"
  | badImageSize =>
    s!"image-size-bytes must be a nonzero multiple of {Rom.wordBytes} " ++
      s!"no larger than {Rom.capacity}"

namespace CrateDescription

/-- The slots of a list in its order, with those found before it; each must be a slot, and new. -/
def checkSlots (found : List Slot) : List Nat → Except DescriptionError (List Slot)
  | [] => .ok found
  | n :: rest =>
    match Slot.check n with
    | .error cause => .error (.badSlot cause)
    | .ok slot =>
      if found.contains slot then .error (.listedTwice slot)
      else checkSlots (found ++ [slot]) rest

def isImageSize (bytes : Nat) : Bool :=
  bytes ≠ 0 && bytes % Rom.wordBytes == 0 && bytes ≤ Rom.capacity

/-- The configuration of a described crate. The slots are checked first, in list order. -/
def check (d : CrateDescription) : Except DescriptionError CrateConfig := do
  let standard : CrateConfig := {}
  let listed ← checkSlots [] d.slots
  let size := d.imageSizeBytes.getD standard.update.imageSizeBytes
  if !isImageSize size then throw .badImageSize
  return {
    device := d.device.getD standard.device
    slots := Slot.all.filter listed.contains
    update := {
      budgets := d.budgets.over standard.update.budgets
      timing := d.timing.over standard.update.timing
      target := d.target
      imageSizeBytes := size } }

end CrateDescription
end Reflash
