import Reflash.Bus
import Std.Data.HashMap
/-!
# A bus of plain registers

Registers that remember what was written to them. An address that was never given a value reads
as nothing driving the bus and does not answer a probe.
-/

namespace Reflash

structure RegisterMemory where
  registers : Std.HashMap UInt32 UInt32 := {}

namespace RegisterMemory

def valueAt (m : RegisterMemory) (address : UInt32) : UInt32 := m.registers.getD address notDriven

def store (m : RegisterMemory) (address value : UInt32) : RegisterMemory :=
  ⟨m.registers.insert address value⟩

instance : Bus RegisterMemory where
  read m address := (m.valueAt address, m)
  write := store
  probe m address := (m.registers.contains address, m)

end RegisterMemory
end Reflash
