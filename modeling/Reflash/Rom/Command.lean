import Reflash.Board.Register
import Reflash.Rom.Geometry
import Reflash.Text.Numeral
/-!
# Commands of the ROM

The handful of ROM commands that updating needs, with their operands. A command is latched by
writing its control word, once more with the execute bit, and once more without it.
-/

namespace Reflash.Rom

inductive Opcode where
  | writeDisable
  | readStatus
  | writeEnable
  | pageProgram
  | autoRead
  | bulkErase
  | readId
  deriving DecidableEq

namespace Opcode

def all : List Opcode :=
  [writeDisable, readStatus, writeEnable, pageProgram, autoRead, bulkErase, readId]

def byte : Opcode → UInt8
  | writeDisable => 0x04
  | readStatus => 0x05
  | writeEnable => 0x06
  | pageProgram => 0x12
  | autoRead => 0x13
  | bulkErase => 0x60
  | readId => 0x9F

def ofByte? (b : UInt8) : Option Opcode := all.find? fun opcode => opcode.byte == b

def ofInt? (n : Int) : Option Opcode := all.find? fun opcode => (opcode.byte.toNat : Int) == n

def name : Opcode → String
  | writeDisable => "WriteDisable"
  | readStatus => "ReadStatus1"
  | writeEnable => "WriteEnable"
  | pageProgram => "PageProgram"
  | autoRead => "AutoRead"
  | bulkErase => "BulkErase"
  | readId => "ReadId"

end Opcode

structure Command where
  opcode : Opcode
  address : Option UInt32 := none
  data : Option UInt32 := none
  /-- Close the ROM's page buffer after this command. -/
  endOfCommand : Bool := false
  deriving DecidableEq

namespace Command

/-- The command at a ROM address, of which the low 24 bits count. -/
def atAddress (cmd : Command) (address : UInt32) : Command :=
  { cmd with address := some (address &&& addressMask) }

def control (cmd : Command) (extra : UInt32) : UInt32 :=
  let closing := if cmd.endOfCommand then Control.endOfCommand else 0
  cmd.opcode.byte.toUInt32 ||| (extra ||| closing)

def operandText : Option UInt32 → String
  | none => "None"
  | some word => "Some(" ++ Text.hexDigits word.toNat ++ ")"

def text (cmd : Command) : String :=
  s!"{cmd.opcode.name} addr {operandText cmd.address} data {operandText cmd.data} " ++
    s!"eoc {cmd.endOfCommand}"

end Command
end Reflash.Rom
