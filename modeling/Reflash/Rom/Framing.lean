import Reflash.Board
/-!
# Framing of commands

A command is written to the command engine in one piece: the control word, the operands, the
control word with the execute bit, and the control word once more to arm the engine for the next
command. Nothing here waits.
-/

namespace Reflash

/-- The register writes of a command, as offsets and values. -/
def Rom.Command.frame (cmd : Rom.Command) : List (UInt32 × UInt32) :=
  (Register.command, cmd.control 0) ::
    (cmd.address.toList.map (Register.address, ·) ++
      cmd.data.toList.map (Register.data, ·) ++
      [(Register.command, cmd.control Control.execute), (Register.command, cmd.control 0)])

namespace Board

variable {σ ε : Type}

def writeAll (b : Board) : List (UInt32 × UInt32) → Job σ ε Unit
  | [] => pure ()
  | (offset, value) :: rest => do
    b.write offset value
    b.writeAll rest

def issue (b : Board) (cmd : Rom.Command) : Job σ ε Unit := do
  Job.remark (.commandIssued b.slot cmd)
  b.writeAll cmd.frame

def readback (b : Board) : Job σ ε UInt32 := b.read Register.readback

def engineReady (b : Board) : Job σ ε Bool := do
  return hasBits (← b.read Register.engineStatus) EngineStatus.ready

def requestReboot (b : Board) : Job σ ε Unit := b.write Register.command Control.reboot

end Board
end Reflash
