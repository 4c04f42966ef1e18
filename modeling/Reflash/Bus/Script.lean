import Reflash.Bus
import Std.Data.HashMap
/-!
# A scripted bus

Reads and probes are answered from queues by address. The last answer of a queue repeats for
ever, an address without a queue always gives the same answer, and writes do nothing.
-/

namespace Reflash

structure Script where
  reads : Std.HashMap UInt32 (List UInt32) := {}
  probes : Std.HashMap UInt32 (List Bool) := {}
  otherRead : UInt32 := 0
  otherProbe : Bool := true

namespace Script

def next {α : Type} (other : α) : List α → α × List α
  | [] => (other, [])
  | [last] => (last, [last])
  | a :: rest => (a, rest)

instance : Bus Script where
  read s address :=
    let (value, rest) := next s.otherRead (s.reads.getD address [])
    (value, { s with reads := s.reads.insert address rest })
  write s _ _ := s
  probe s address :=
    let (answered, rest) := next s.otherProbe (s.probes.getD address [])
    (answered, { s with probes := s.probes.insert address rest })

end Script
end Reflash
