/-!
# Register map of the board

Offsets from a board's base address, and the bits of the registers. The configuration ROM sits
behind a command engine with a command, an address and a data register, a readback register and
a status register.
-/

namespace Reflash

/-- The word that the bus reads as where nothing drives it. -/
def notDriven : UInt32 := 0xFFFFFFFF

namespace Register

/-- Identification: the board type in the upper half. -/
def boardId : UInt32 := 0x0000
/-- Version of the control FPGA in the lower half; all ones while the FPGAs reconfigure. -/
def controlVersion : UInt32 := 0x0004
/-- Version of the processing FPGA in the lower half. -/
def processingVersion : UInt32 := 0x0008
def reset : UInt32 := 0x0010
/-- Command register: an opcode in the low byte, control bits above it. -/
def command : UInt32 := 0x0120
def address : UInt32 := 0x0124
def data : UInt32 := 0x0128
def readback : UInt32 := 0x012C
def engineStatus : UInt32 := 0x0130

end Register

def boardType : UInt16 := 0xFADC

def isFlashAdc (id : UInt32) : Bool := (id >>> 16).toUInt16 == boardType

def hasBits (word bits : UInt32) : Bool := word &&& bits == bits

namespace Control

/-- Closes the page buffer of the ROM after the command. -/
def endOfCommand : UInt32 := 0x100
/-- Its rising edge starts the command. -/
def execute : UInt32 := 0x200
/-- Reconfigures both FPGAs from the ROM. -/
def reboot : UInt32 := 0x800
def known : UInt32 := endOfCommand ||| execute ||| reboot
def opcodeField : UInt32 := 0xFF

end Control

namespace ResetRequest

def soft : UInt32 := 0x1
def hard : UInt32 := 0x2
def both : UInt32 := soft ||| hard

end ResetRequest

namespace EngineStatus

def ready : UInt32 := 0x2

end EngineStatus

namespace RomStatus

def writing : UInt32 := 0x1
def writeEnabled : UInt32 := 0x2

end RomStatus
end Reflash
