import Reflash.Board.Version
import Reflash.Host.OsError
import Reflash.Rom.Command
import Reflash.Update.Phase
/-!
# Remarks for the log

What the routines and the bus note for the log, as data. The severity and the wording of a
remark are functions of it, so a log that drops a remark never words it.
-/

namespace Reflash

inductive Severity where
  | error
  | warn
  | info
  | debug
  | trace
  deriving DecidableEq

namespace Severity

def all : List Severity := [error, warn, info, debug, trace]

/-- The rank of a severity; the most severe is the lowest. -/
def rank : Severity → Nat
  | error => 1
  | warn => 2
  | info => 3
  | debug => 4
  | trace => 5

def name : Severity → String
  | error => "ERROR"
  | warn => "WARN"
  | info => "INFO"
  | debug => "DEBUG"
  | trace => "TRACE"

end Severity

inductive Remark where
  | boardFound (slot : Slot) (id : UInt32)
  | boardIgnored (slot : Slot) (id : UInt32)
  | commandIssued (slot : Slot) (command : Rom.Command)
  | writeComplete (polls : Nat)
  | eraseComplete (slot : Slot) (polls : Nat)
  | wordDiffers (mismatch : Mismatch)
  | phaseReached (slot : Slot) (phase : Phase)
  | stepFailed (failure : StepFailure)
  | romIdentified (slot : Slot) (id : UInt32)
  | boardReturned (slot : Slot) (polls : Nat)
  | boardCurrent (slot : Slot) (version : Version)
  | resetting (boards : Nat)
  | erasing
  | programming
  | rebooting
  | crateDone (boards skipped failed : Nat) (passedMask : UInt32)
  | imageRead (words : Nat) (path : String)
  | simulating (boards : Nat)
  | boardsFound (boards : Nat) (mask : UInt32)
  | cyclesFailed (cycles : Nat)
  | unknownOpcode (byte : UInt8)
  | windowReadFailed (path : String) (address : UInt32) (cause : Host.OsError)
  | windowWriteFailed (path : String) (address : UInt32) (cause : Host.OsError)
  deriving DecidableEq

namespace Remark

def severity : Remark → Severity
  | boardFound .. | boardIgnored .. | eraseComplete .. | phaseReached .. | boardReturned ..
  | imageRead .. | windowReadFailed .. => .debug
  | commandIssued .. | writeComplete .. => .trace
  | wordDiffers .. | boardCurrent .. | cyclesFailed .. | unknownOpcode ..
  | windowWriteFailed .. => .warn
  | stepFailed .. => .error
  | romIdentified .. | resetting .. | erasing | programming | rebooting | crateDone ..
  | simulating .. | boardsFound .. => .info

def text : Remark → String
  | boardFound slot id => s!"slot {slot.number}: found board, id {Text.hex 8 id.toNat}"
  | boardIgnored slot id => s!"slot {slot.number}: ignoring board, id {Text.hex 8 id.toNat}"
  | commandIssued slot command => s!"slot {slot.number}: {command.text}"
  | writeComplete polls => s!"write complete after {polls} polls"
  | eraseComplete slot polls => s!"slot {slot.number}: erase took {polls} polls"
  | wordDiffers m => s!"mismatch at {m.text}"
  | phaseReached slot phase => s!"slot {slot.number}: {phase.name}"
  | stepFailed failure => failure.message
  | romIdentified slot id => s!"slot {slot.number}: rom id {Text.hex 6 id.toNat}"
  | boardReturned slot polls => s!"slot {slot.number}: back after {polls} polls"
  | boardCurrent slot version => s!"slot {slot.number}: already at {version.text}, skipping"
  | resetting boards => s!"resetting {boards} boards"
  | erasing => "erasing"
  | programming => "programming"
  | rebooting => "rebooting"
  | crateDone boards skipped failed mask =>
    s!"batch done: {boards} boards, {skipped} skipped, {failed} failed, " ++
      s!"mask {Text.hex 0 mask.toNat}"
  | imageRead words path => s!"read {words} words from {path}"
  | simulating boards => s!"simulating {boards} boards"
  | boardsFound boards mask => s!"found {boards} boards, slot mask {Text.hex 6 mask.toNat}"
  | cyclesFailed cycles => s!"{cycles} bus cycles failed"
  | unknownOpcode byte => s!"mock: unknown rom opcode {Text.hex 2 byte.toNat}"
  | windowReadFailed path address cause =>
    s!"{path}: read {Text.hex 6 address.toNat}: {cause.message}"
  | windowWriteFailed path address cause =>
    s!"{path}: write {Text.hex 6 address.toNat}: {cause.message}"

def line (r : Remark) : String := r.severity.name ++ " " ++ r.text

/-- The remark as a log shows it: its line, in which every further line of the wording is
indented. -/
def entry (r : Remark) : String := "\n    ".intercalate (r.line.splitOn "\n") ++ "\n"

/-- Whether a log that keeps remarks down to a severity keeps this one. A log that is off keeps
none. -/
def passes (r : Remark) (threshold : Option Severity) : Bool :=
  match threshold with
  | none => false
  | some least => r.severity.rank ≤ least.rank

end Remark
end Reflash
