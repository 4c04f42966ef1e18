import Reflash.Host.Tool
import Reflash.Host.Window
import Reflash.Bus.Bench
import Reflash.Progress.Console
/-!
# A workstation in memory

The files, the bus and the desk that a run works with, as values. A run on it is a function: from
the workstation before to the result and the workstation after.
-/

namespace Reflash.Host

structure Desk where
  input : List UInt8 := []
  output : String := ""
  /-- The least severity that the log keeps; a log that is off has none. -/
  threshold : Option Severity := none
  log : Array Remark := #[]
  console : Console := {}

namespace Desk

def print (d : Desk) (text : String) : Desk := { d with output := d.output ++ text }

def report (d : Desk) (e : Event) : Desk :=
  let (console, text) := d.console.print e
  { d with console, output := d.output ++ text }

def remark (d : Desk) (r : Remark) : Desk :=
  if r.passes d.threshold then { d with log := d.log.push r } else d

def firstLine : List UInt8 → List UInt8 × List UInt8
  | [] => ([], [])
  | byte :: rest =>
    if byte = 10 then ([byte], rest)
    else
      let (line, rest) := firstLine rest
      (byte :: line, rest)

def readLine (d : Desk) : Except OsError String × Desk :=
  let (line, rest) := firstLine d.input
  (textOf line.toByteArray, { d with input := rest })

end Desk

structure Machine where
  files : Files := {}
  /-- An open window, or what drives the bus instead. -/
  bus : Window ⊕ Bench := .inr (.ofCrate {})
  desk : Desk := {}

namespace Machine

instance : Bus (Files × (Window ⊕ Bench)) where
  read
    | (files, .inl w), address =>
      let (value, files, w) := Bus.read (files, w) address
      (value, files, .inl w)
    | (files, .inr b), address =>
      let (value, b) := Bus.read b address
      (value, files, .inr b)
  write
    | (files, .inl w), address, value =>
      let (files, w) := Bus.write (files, w) address value
      (files, .inl w)
    | (files, .inr b), address, value => (files, .inr (Bus.write b address value))
  probe
    | (files, .inl w), address =>
      let (answered, files, w) := Bus.probe (files, w) address
      (answered, files, .inl w)
    | (files, .inr b), address =>
      let (answered, b) := Bus.probe b address
      (answered, files, .inr b)
  remarks
    | (files, .inl w), request => Bus.remarks (files, w) request
    | (_, .inr b), request => Bus.remarks b request

def failedCycles (m : Machine) : Nat :=
  match m.bus with
  | .inl w => w.failures
  | .inr _ => 0

/-- The desk after a request of the update engine. What the bus notes about a cycle is not looked
for while the log is off. -/
def hear (files : Files) (bus : Window ⊕ Bench) (desk : Desk) : Request → Desk
  | .report event => desk.report event
  | .remark remark => desk.remark remark
  | .pause _ | .tick => desk
  | cycle =>
    match desk.threshold with
    | none => desk
    | some _ => (Bus.remarks (files, bus) cycle).foldl Desk.remark desk

def handler : Handler workstation Machine
  | .engine r, ⟨files, bus, desk⟩ =>
    let desk := hear files bus desk r
    let (answer, files, bus) := Bus.handler r (files, bus)
    (answer, ⟨files, bus, desk⟩)
  | .simulate crate, m => ((), { m with bus := .inr (.ofCrate crate) })
  | .openWindow path, m =>
    match Window.openAt m.files path with
    | .ok window => (.ok (), { m with bus := .inl window })
    | .error cause => (.error cause, m)
  | .failedCycles, m => (m.failedCycles, m)
  | .readFile path, m => (m.files.read path, m)
  | .writeFile path bytes, m =>
    match m.files.write path (.ofBytes bytes) with
    | .ok files => (.ok (), { m with files })
    | .error cause => (.error cause, m)
  | .print text, m => ((), { m with desk := m.desk.print text })
  | .readLine, m =>
    let (line, desk) := m.desk.readLine
    (line, { m with desk })

def run {α : Type} (m : Machine) (r : Run α) : Outcome RunError α × Machine :=
  let ((outcome, ()), m) := (r ()).run handler m
  (outcome, m)

end Machine
end Reflash.Host
