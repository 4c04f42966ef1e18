import Reflash.Host.Files
import Reflash.Bus
/-!
# Windows on the bus

A window maps the bus onto a file: four bytes at an offset are the word at that address, with the
most significant byte first. A cycle that nothing answers is a failed access to the file; failed
reads and writes are counted and noted, and a failed read gives what the bus reads as when nothing
drives it. A probe is a read that is neither counted nor noted.
-/

namespace Reflash.Host

structure Window where
  path : String
  node : Node
  failures : Nat := 0

namespace Window

def openAt (files : Files) (path : String) : Except OsError Window := do
  match ← files.locate false path with
  | .directory _ => throw .isDirectory
  | node => return { path, node }

def cycle (w : Window) (files : Files) (address : UInt32) : Except OsError UInt32 :=
  match w.node with
  | .regular place =>
    match (files.content place).wordAt? address.toNat with
    | some word => .ok word
    | none => .error .endOfFile
  | .null => .error .endOfFile
  | .full => .ok 0
  | .directory _ => .error .isDirectory

def put (w : Window) (files : Files) (address word : UInt32) : Except OsError Files :=
  match w.node with
  | .regular place => .ok (files.store place ((files.content place).setWord address.toNat word))
  | .null => .ok files
  | .full => .error .noSpace
  | .directory _ => .error .isDirectory

def fail (w : Window) : Window := { w with failures := w.failures + 1 }

def read (w : Window) (files : Files) (address : UInt32) : UInt32 × Window :=
  match w.cycle files address with
  | .ok word => (word, w)
  | .error _ => (notDriven, w.fail)

def write (w : Window) (files : Files) (address word : UInt32) : Files × Window :=
  match w.put files address word with
  | .ok files => (files, w)
  | .error _ => (files, w.fail)

def probe (w : Window) (files : Files) (address : UInt32) : Bool :=
  match w.cycle files address with
  | .ok _ => true
  | .error _ => false

def remarks (w : Window) (files : Files) : Request → List Remark
  | .read address =>
    match w.cycle files address with
    | .ok _ => []
    | .error cause => [.windowReadFailed w.path address cause]
  | .write address word =>
    match w.put files address word with
    | .ok _ => []
    | .error cause => [.windowWriteFailed w.path address cause]
  | _ => []

/-- A window drives the bus together with the files that it is one of. -/
instance : Bus (Files × Window) where
  read | (files, w), address => let (word, w) := w.read files address; (word, files, w)
  write | (files, w), address, word => w.write files address word
  probe | (files, w), address => (w.probe files address, files, w)
  remarks | (files, w), request => w.remarks files request

end Window
end Reflash.Host
