import Reflash.Board.Register
import Reflash.Board.Version
import Reflash.Rom.Command
import Reflash.Simulation.Rom
/-!
# A simulated board

Enough of a board to exercise an update: the framing of commands (a command runs when the execute
bit rises), the ROM with its write-enable latch, page buffer and write in progress, the version
registers, and an FPGA reboot that takes the board off the bus for a while. How long things take
is counted in the accesses that wait for them. Faults can be injected.
-/

namespace Reflash

structure Faults where
  neverReady : Bool := false
  eraseStuck : Bool := false
  writeProtected : Bool := false
  protectAfterErase : Bool := false
  /-- The command engine stops reporting ready after the first word read. -/
  readHangs : Bool := false
  noReboot : Bool := false
  /-- The index of a word that reads wrong. -/
  corruptWord : Option Nat := none
  deriving DecidableEq

/-- How long a simulated board takes for things, counted in accesses that wait for them. -/
structure Latency where
  /-- Polls that find the command engine not ready after a reset. -/
  reset : Nat := 2
  /-- Status commands that find a write in progress after a bulk erase. -/
  erase : Nat := 8
  /-- Status commands that find a write in progress after a page commit. -/
  page : Nat := 1
  /-- Probes and version reads that find the board away after a reboot request. -/
  reboot : Nat := 5
  deriving DecidableEq

structure Activity where
  reads : Nat := 0
  writes : Nat := 0
  resets : Nat := 0
  commands : Nat := 0
  endOfCommands : Nat := 0
  erases : Nat := 0
  pageCommits : Nat := 0
  /-- Words that were thrown away because the write-enable latch was not set. -/
  droppedWords : Nat := 0
  /-- Status commands that found a write in progress. -/
  busyReads : Nat := 0
  reboots : Nat := 0
  deriving DecidableEq

structure SimulatedBoard where
  rom : RomContents := .blank
  version : Version
  /-- The firmware that the board runs after its next reboot, if not the present one. -/
  rebootVersion : Option Version := none
  faults : Faults := {}
  latency : Latency := {}
  control : UInt32 := 0
  address : UInt32 := 0
  data : UInt32 := 0
  readback : UInt32 := 0
  writeEnabled : Bool := false
  /-- Status commands that will still find a write in progress. -/
  busy : Nat := 0
  /-- The words in the page buffer by index, if it is open. -/
  page : Option (Array (Nat × UInt32)) := none
  /-- Polls that will still find the command engine not ready. -/
  notReady : Nat := 0
  /-- The command engine has stopped for good. -/
  hung : Bool := false
  /-- Accesses that will still find the board away. -/
  rebooting : Nat := 0
  activity : Activity := {}

namespace SimulatedBoard

def boardId : UInt32 := (boardType.toUInt32 <<< 16) ||| 1

def romId : UInt32 := 0x0020BA18

/-- A count that never runs out. -/
def forever : Nat := 0xFFFFFFFF

/-- Whether the board is away for a reboot. Asking takes one of the accesses that find it so. -/
def isAway (b : SimulatedBoard) : Bool × SimulatedBoard :=
  (b.rebooting != 0, { b with rebooting := b.rebooting - 1 })

/-- Whether the command engine is ready. Asking takes one of the polls that find it not ready. -/
def isReady (b : SimulatedBoard) : Bool × SimulatedBoard :=
  if b.faults.neverReady || b.hung then (false, b)
  else (b.notReady == 0, { b with notReady := b.notReady - 1 })

def read (b : SimulatedBoard) (offset : UInt32) : UInt32 × SimulatedBoard :=
  let b := { b with activity.reads := b.activity.reads + 1 }
  if offset = Register.boardId then (boardId, b)
  else if offset = Register.controlVersion then
    let (away, b) := b.isAway
    (if away then notDriven else b.version.control.toUInt32, b)
  else if offset = Register.processingVersion then
    let (away, b) := b.isAway
    (if away then notDriven else b.version.processing.toUInt32, b)
  else if offset = Register.command then (b.control, b)
  else if offset = Register.address then (b.address, b)
  else if offset = Register.data then (b.data, b)
  else if offset = Register.readback then (b.readback, b)
  else if offset = Register.engineStatus then
    let (ready, b) := b.isReady
    (if ready then EngineStatus.ready else 0, b)
  else (0, b)

def probe (b : SimulatedBoard) : Bool × SimulatedBoard :=
  let (away, b) := b.isAway
  (!away, b)

/-- Close the write-enable latch and throw the page buffer away. -/
def dropPage (b : SimulatedBoard) : SimulatedBoard :=
  { b with writeEnabled := false, page := none }

def reset (b : SimulatedBoard) : SimulatedBoard :=
  { b.dropPage with activity.resets := b.activity.resets + 1, notReady := b.latency.reset }

def reboot (b : SimulatedBoard) : SimulatedBoard :=
  { b.dropPage with
    activity.reboots := b.activity.reboots + 1
    rebooting := if b.faults.noReboot then forever else b.latency.reboot
    version := b.rebootVersion.getD b.version }

def reportStatus (b : SimulatedBoard) : SimulatedBoard :=
  let enabled := if b.writeEnabled then RomStatus.writeEnabled else 0
  if b.busy = 0 then { b with readback := enabled }
  else
    { b with
      readback := RomStatus.writing ||| enabled
      busy := b.busy - 1
      activity.busyReads := b.activity.busyReads + 1 }

/-- The bulk erase command. It is ignored unless the write-enable latch is set and no write is in
progress. -/
def bulkErase (b : SimulatedBoard) : SimulatedBoard :=
  if b.writeEnabled && b.busy == 0 then
    { b with
      rom := .blank
      writeEnabled := false
      faults.writeProtected := b.faults.writeProtected || b.faults.protectAfterErase
      busy := if b.faults.eraseStuck then forever else b.latency.erase
      activity.erases := b.activity.erases + 1 }
  else b

def wordIndex (b : SimulatedBoard) : Nat := b.address.toNat / Rom.wordBytes

/-- Program the page buffer into the ROM, which clears the write-enable latch and takes a while. -/
def commitPage (b : SimulatedBoard) (page : Array (Nat × UInt32)) : SimulatedBoard :=
  { b with
    rom := b.rom.commit page
    page := none
    writeEnabled := false
    busy := b.latency.page
    activity.pageCommits := b.activity.pageCommits + 1 }

/-- The page-program command. The first word opens the page buffer if the write-enable latch is
set and no write is in progress, and is thrown away otherwise. An open buffer takes every word. -/
def pageProgram (b : SimulatedBoard) (closing : Bool) : SimulatedBoard :=
  let word := (b.wordIndex, b.data)
  let page? := match b.page with
    | some page => some (page.push word)
    | none => if b.writeEnabled && b.busy == 0 then some #[word] else none
  match page? with
  | none => { b with activity.droppedWords := b.activity.droppedWords + 1 }
  | some page => if closing then b.commitPage page else { b with page := some page }

def autoRead (b : SimulatedBoard) : SimulatedBoard :=
  let word := b.rom.wordAt b.wordIndex
  let corrupt := b.faults.corruptWord == some b.wordIndex
  { b with
    readback := if corrupt then word ^^^ 0x100 else word
    hung := b.hung || b.faults.readHangs }

def execute (b : SimulatedBoard) (closing : Bool) : Rom.Opcode → SimulatedBoard
  | .writeDisable => { b with writeEnabled := false }
  | .readStatus => b.reportStatus
  | .writeEnable => { b with writeEnabled := !b.faults.writeProtected }
  | .pageProgram => b.pageProgram closing
  | .autoRead => b.autoRead
  | .bulkErase => b.bulkErase
  | .readId => { b with readback := romId }

def started? (b : SimulatedBoard) (word : UInt32) : Option UInt8 :=
  if !hasBits word Control.reboot && hasBits word Control.execute &&
      !hasBits b.control Control.execute then
    some (word &&& Control.opcodeField).toUInt8
  else none

/-- Run the command of a control word. A field that is no opcode counts as a command, too, and
does nothing. -/
def runCommand (b : SimulatedBoard) (field : UInt8) (closing : Bool) : SimulatedBoard :=
  let b := { b with
    activity.commands := b.activity.commands + 1
    activity.endOfCommands := b.activity.endOfCommands + if closing then 1 else 0 }
  match Rom.Opcode.ofByte? field with
  | some opcode => b.execute closing opcode
  | none => b

def writeControl (b : SimulatedBoard) (word : UInt32) : SimulatedBoard :=
  let field? := b.started? word
  let b := { b with control := word }
  if hasBits word Control.reboot then b.reboot
  else match field? with
    | some field => b.runCommand field (hasBits word Control.endOfCommand)
    | none => b

def write (b : SimulatedBoard) (offset value : UInt32) : SimulatedBoard :=
  let b := { b with activity.writes := b.activity.writes + 1 }
  if offset = Register.reset then b.reset
  else if offset = Register.command then b.writeControl value
  else if offset = Register.address then { b with address := value &&& Rom.addressMask }
  else if offset = Register.data then { b with data := value }
  else b

def unknownOpcode? (b : SimulatedBoard) (offset value : UInt32) : Option UInt8 :=
  if offset = Register.command then
    (b.started? value).filter fun field => (Rom.Opcode.ofByte? field).isNone
  else none

end SimulatedBoard
end Reflash
