import Reflash.Rom.Session
/-!
# Erasing a ROM

A bulk erase is started with one command and runs on its own; waiting for its end is apart from
that, so that other boards can be seen to in the meantime.
-/

namespace Reflash.RomSession

def startErase : RomJob Unit := do
  enableWrites
  command { opcode := .bulkErase }

/-- Wait until a bulk erase is over; the result is the number of status reads. -/
def awaitErase (onTick : Exchange Unit) : RomJob Nat := do
  let s ← Routine.get
  let polls ← awaitWrite s.budgets.eraseTries onTick
  Job.remark (.eraseComplete s.board.slot polls)
  return polls

def erase (wait : Bool) (onTick : Exchange Unit) : RomJob Unit := do
  startErase
  if wait then
    let _ ← awaitErase onTick

end Reflash.RomSession
