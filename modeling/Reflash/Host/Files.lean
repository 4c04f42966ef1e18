import Reflash.Host.Content
import Reflash.Host.OsError
/-!
# Files

The few directories that a path can lead through, and what is in them: regular files anywhere, and
the two devices that swallow what is written. The null device reads as empty; the full device reads
as zeros and refuses every byte. A path is walked component by component, from the root or from the
working directory.
-/

namespace Reflash.Host

/-- A directory. The working directory lies among the temporary ones. -/
inductive Directory where
  | root
  | devices
  | temporary
  | working
  deriving DecidableEq, Hashable

def Directory.parent : Directory → Directory
  | working => temporary
  | root | devices | temporary => root

structure Place where
  directory : Directory
  name : String
  deriving DecidableEq, Hashable

inductive Node where
  | regular (place : Place)
  | null
  | full
  | directory (which : Directory)
  deriving DecidableEq

structure Files where
  contents : Std.HashMap Place Content := {}

namespace Files

def content (f : Files) (place : Place) : Content := f.contents.getD place {}

def store (f : Files) (place : Place) (content : Content) : Files :=
  ⟨f.contents.insert place content⟩

def ofList (l : List (String × Content)) : Files :=
  l.foldl (fun f (name, content) => f.store ⟨.working, name⟩ content) {}

def entry? (f : Files) (place : Place) : Option Node :=
  match place with
  | ⟨.root, "dev"⟩ => some (.directory .devices)
  | ⟨.root, "tmp"⟩ => some (.directory .temporary)
  | ⟨.devices, "null"⟩ => some .null
  | ⟨.devices, "full"⟩ => some .full
  | place => if f.contents.contains place then some (.regular place) else none

/-! ## Paths -/

def maxName : Nat := 255

def maxPath : Nat := 4095

def components (path : String) : List String := (path.splitOn "/").filter (· ≠ "")

def byDots? (d : Directory) (name : String) : Option Directory :=
  if name = "." then some d else if name = ".." then some d.parent else none

def look (f : Files) (place : Place) : Except OsError (Option Node) :=
  if maxName < place.name.utf8ByteSize then .error .nameTooLong else .ok (f.entry? place)

def enter (f : Files) (d : Directory) (name : String) : Except OsError Directory :=
  match byDots? d name with
  | some next => .ok next
  | none => do
    match ← f.look ⟨d, name⟩ with
    | some (.directory next) => return next
    | some _ => throw .notDirectory
    | none => throw .notFound

/-- What the last component of a path leads to, which is there already or is to be made. With a
slash behind it, it can be nothing but a directory, and none is made. -/
def arrive (f : Files) (creating slash : Bool) (d : Directory) (name : String) :
    Except OsError Node :=
  match byDots? d name with
  | some last => .ok (.directory last)
  | none => do
    if creating && slash then throw .isDirectory
    match ← f.look ⟨d, name⟩ with
    | some (.directory last) => return .directory last
    | some node => if slash then throw .notDirectory else return node
    | none => if creating then return .regular ⟨d, name⟩ else throw .notFound

def walk (f : Files) (creating slash : Bool) (d : Directory) :
    List String → Except OsError Node
  | [] => .ok (.directory d)
  | [name] => f.arrive creating slash d name
  | name :: r => do f.walk creating slash (← f.enter d name) r

def locate (f : Files) (creating : Bool) (path : String) : Except OsError Node :=
  if path.toList.contains '\x00' then .error .nulInPath
  else if path = "" then .error .notFound
  else if maxPath < path.utf8ByteSize then .error .nameTooLong
  else
    let start := if path.startsWith "/" then .root else .working
    f.walk creating (path.endsWith "/") start (components path)

/-- The content of the file at a path. The full device has no end. -/
def read (f : Files) (path : String) : Except OsError Content := do
  match ← f.locate false path with
  | .regular place => return f.content place
  | .null => return {}
  | .full => throw (.other "out of memory")
  | .directory _ => throw .isDirectory

def write (f : Files) (path : String) (content : Content) : Except OsError Files := do
  match ← f.locate true path with
  | .regular place => return f.store place content
  | .null => return f
  | .full => if content.size = 0 then return f else throw .noSpace
  | .directory _ => throw .isDirectory

end Files
end Reflash.Host
