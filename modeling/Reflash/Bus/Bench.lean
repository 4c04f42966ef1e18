import Reflash.Bus.Memory
import Reflash.Bus.Script
import Reflash.Simulation.Crate
/-!
# The bench

A bus with no hardware behind it: simulated boards, plain registers or a script.
-/

namespace Reflash

abbrev Bench : Type := SimulatedCrate ⊕ RegisterMemory ⊕ Script

def Bench.ofCrate (c : SimulatedCrate) : Bench := .inl c

end Reflash
