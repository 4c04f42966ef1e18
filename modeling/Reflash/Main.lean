import Reflash.Host.Content
import Reflash.Host.Ending
import Reflash.Progress.Console
/-!
# The program

The requests of a run, answered by the system: files, the device behind a window, the terminal and
the clock. The environment tells whether text is coloured and what the log keeps.
-/

namespace Reflash.Host

inductive LiveBus where
  | device (handle : IO.FS.Handle)
  | crate (crate : SimulatedCrate)

structure Live where
  bus : LiveBus := .crate {}
  path : String := ""
  failedCycles : Nat := 0
  console : Console := {}
  threshold : Option Severity

namespace Live

def osError : IO.Error → OsError
  | .noFileOrDirectory .. => .notFound
  | .inappropriateType _ 20 _ => .notDirectory
  | .inappropriateType _ 21 _ => .isDirectory
  | .resourceExhausted _ 28 _ => .noSpace
  | .invalidArgument _ 36 _ => .nameTooLong
  | e => .other (toString e)

def access {α : Type} (action : IO α) : IO (Except OsError α) := do
  match ← action.toBaseIO with
  | .ok a => return .ok a
  | .error e => return .error (osError e)

/-- Go to an offset of a device from its start; the result is how many bytes are missing before
it. -/
def seek (h : IO.FS.Handle) (offset : Nat) : IO Nat := do
  let block := 0x10000
  h.rewind
  let mut left := offset
  for _ in [0:offset / block] do
    left := left - (← h.read block.toUSize).size
  return left - (← h.read (offset % block).toUSize).size

def deviceRead (h : IO.FS.Handle) (address : UInt32) : IO (Except OsError UInt32) := access do
  let _ ← seek h address.toNat
  let bytes ← h.read 4
  match (Content.ofBytes bytes).wordAt? 0 with
  | some word => return word
  | none => throw .unexpectedEof

def deviceWrite (h : IO.FS.Handle) (address word : UInt32) : IO (Except OsError Unit) := access do
  let missing ← seek h address.toNat
  h.write (Content.zeros missing).toBytes
  h.write (BigEndian.encode [word])
  h.flush

def remark (live : IO.Ref Live) (r : Remark) : IO Unit := do
  if r.passes (← live.get).threshold then
    IO.eprint r.entry

def print (text : String) : IO Unit := do
  let out ← IO.getStdout
  out.putStr text
  out.flush

def fail (live : IO.Ref Live) (r : Remark) : IO Unit := do
  live.modify fun l => { l with failedCycles := l.failedCycles + 1 }
  remark live r

def engine (live : IO.Ref Live) : (r : Request) → IO r.Answer
  | .pause milliseconds => IO.sleep milliseconds.toUInt32
  | .tick => return ()
  | .remark r => remark live r
  | .report event => do
    let l ← live.get
    let (console, text) := l.console.print event
    live.set { l with console }
    print text
  | .read address => do
    let l ← live.get
    match l.bus with
    | .device h =>
      match ← deviceRead h address with
      | .ok word => return word
      | .error cause =>
        fail live (.windowReadFailed l.path address cause)
        return notDriven
    | .crate c =>
      let (word, c) := Bus.read c address
      live.set { l with bus := .crate c }
      return word
  | .write address value => do
    let l ← live.get
    match l.bus with
    | .device h =>
      if let .error cause ← deviceWrite h address value then
        fail live (.windowWriteFailed l.path address cause)
    | .crate c =>
      (Bus.remarks c (.write address value)).forM (remark live)
      live.set { l with bus := .crate (Bus.write c address value) }
  | .probe address => do
    let l ← live.get
    match l.bus with
    | .device h => return (← deviceRead h address).toBool
    | .crate c =>
      let (answered, c) := Bus.probe c address
      live.set { l with bus := .crate c }
      return answered

def readLine : IO ByteArray := do
  let input ← IO.getStdin
  let mut line := ByteArray.empty
  repeat
    let byte ← input.read 1
    line := line ++ byte
    if byte.size = 0 || byte.data.contains 10 then
      break
  return line

def answer (live : IO.Ref Live) : (r : ToolRequest) → IO r.Answer
  | .engine r => engine live r
  | .simulate crate => live.modify fun l => { l with bus := .crate crate }
  | .openWindow path => access do
    let h ← IO.FS.Handle.mk path .readWrite
    live.modify fun l => { l with bus := .device h, path }
  | .failedCycles => return (← live.get).failedCycles
  | .readFile path => access (Content.ofBytes <$> IO.FS.readBinFile path)
  | .writeFile path bytes => access (IO.FS.writeBinFile path bytes)
  | .print text => print text
  | .readLine => return (← access readLine) >>= textOf

def perform {α : Type} (live : IO.Ref Live) : Dialogue workstation α → IO α
  | .done a => return a
  | .ask r next => do
    let a ← answer live r
    perform live (next a)

/-- Whether text is coloured: where it is forced, or else on a terminal that is not told
otherwise. -/
def wantsColor : IO Bool := do
  let on (value : Option String) (standard : Bool) : Bool := value.elim standard (· != "0")
  if on (← IO.getEnv "CLICOLOR_FORCE") false then
    return true
  else if (← IO.getEnv "NO_COLOR").isSome then
    return false
  else
    return on (← IO.getEnv "CLICOLOR") true && (← (← IO.getStdout).isTty)

/-- What the log keeps: remarks down to the severity that the environment names, or else to the
one of plain information. -/
def wantedLog : IO (Option Severity) := do
  match ← IO.getEnv "REFLASH_LOG" with
  | none => return some .info
  | some name => return Severity.all.find? fun s => s.name == name.toUpper

end Live
end Reflash.Host

def main (words : List String) : IO UInt32 := do
  let live ← IO.mkRef { threshold := ← Reflash.Host.Live.wantedLog }
  let ending ← Reflash.Host.Live.perform live
    (Reflash.Host.program words (← Reflash.Host.Live.wantsColor))
  IO.eprint ending.report
  return ending.code.toUInt32
