import Reflash.Engine
/-!
# The bus

Whatever drives the bus cycles: a window device, a simulator, a script. It answers reads and
probes and takes writes, each of which may change it. Nothing else that a routine asks for reaches
the bus.
-/

namespace Reflash

inductive Access where
  | read (address value : UInt32)
  | write (address value : UInt32)
  | probe (address : UInt32) (answered : Bool)
  deriving DecidableEq

def Access.of? : (r : Request) → r.Answer → Option Access
  | .read address, value => some (.read address value)
  | .write address value, _ => some (.write address value)
  | .probe address, answered => some (.probe address answered)
  | .pause _, _ | .tick, _ | .remark _, _ | .report _, _ => none

/-- States that can drive the bus. -/
class Bus (σ : Type) where
  read : σ → UInt32 → UInt32 × σ
  write : σ → UInt32 → UInt32 → σ
  probe : σ → UInt32 → Bool × σ
  remarks : σ → Request → List Remark := fun _ _ => []

instance {σ τ : Type} [Bus σ] [Bus τ] : Bus (σ ⊕ τ) where
  read
    | .inl s, address => let (value, s) := Bus.read s address; (value, .inl s)
    | .inr t, address => let (value, t) := Bus.read t address; (value, .inr t)
  write
    | .inl s, address, value => .inl (Bus.write s address value)
    | .inr t, address, value => .inr (Bus.write t address value)
  probe
    | .inl s, address => let (answered, s) := Bus.probe s address; (answered, .inl s)
    | .inr t, address => let (answered, t) := Bus.probe t address; (answered, .inr t)
  remarks
    | .inl s, request => Bus.remarks s request
    | .inr t, request => Bus.remarks t request

/-- The bus as the handler of update routines: it answers the cycles and lets the rest go. -/
def Bus.handler {σ : Type} [Bus σ] : Handler engine σ
  | .read address, s => Bus.read s address
  | .write address value, s => ((), Bus.write s address value)
  | .probe address, s => Bus.probe s address
  | .pause _, s | .tick, s | .remark _, s | .report _, s => ((), s)

/-- A handler beside which an observer sees every request with its answer, and the state in which
the request was made. -/
def Handler.observed {I : Interface} {σ τ : Type} (h : Handler I σ)
    (see : σ → (r : I.Request) → I.Answer r → τ → τ) : Handler I (σ × τ) := fun r (s, t) =>
  let seen := see s r
  let (answer, s) := h r s
  (answer, s, seen answer t)

end Reflash
