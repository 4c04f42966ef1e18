import Reflash.Board.Version
import Reflash.Rom.Geometry
/-!
# Tunables of an update

Budgets bound the polling loops by a number of turns, never by a clock. Timings are the fixed
pauses between steps, in milliseconds. The defaults suit real hardware.
-/

namespace Reflash

/-- How many turns each polling loop may take. -/
structure Budgets where
  /-- Polls for a ready command engine after a reset. -/
  readyTries : Nat := 60
  /-- Polls for a ready command engine between two commands. -/
  commandReadyTries : Nat := 1000
  /-- Status reads while a bulk erase runs. -/
  eraseTries : Nat := 200000
  /-- Status reads after each page commit. -/
  pageTries : Nat := 20
  /-- Probes while the FPGAs reconfigure. -/
  rebootTries : Nat := 60000
  deriving DecidableEq, Inhabited

/-- The fixed pauses of an update, in milliseconds. -/
structure Timing where
  /-- After a reset, before polling for ready. -/
  resetSettle : Nat := 50
  /-- Between two status reads of a write in progress. -/
  writePollInterval : Nat := 1
  /-- After a reboot request, before the first probe. -/
  rebootSettle : Nat := 1000
  /-- Between two probes during a reboot. -/
  rebootPollInterval : Nat := 1
  deriving DecidableEq, Inhabited

def Timing.immediate : Timing := ⟨0, 0, 0, 0⟩

structure UpdateConfig where
  budgets : Budgets := {}
  timing : Timing := {}
  /-- Boards that run this firmware already are skipped unless forced. -/
  target : Version
  /-- How much of the ROM is read when its contents are saved. -/
  imageSizeBytes : Nat := Rom.bitstreamBytes
  deriving DecidableEq, Inhabited

end Reflash
