import Reflash.Dialogue
/-!
# Routines

A routine is a dialogue that works on a state and can fail. The state survives a failure: what
the routine had done to it by then stays done. Apart from failing, a routine can stop because a
register's address does not fit the bus; nothing is done after that.
-/

namespace Reflash

inductive Outcome (ε α : Type) where
  | ok (value : α)
  | failed (error : ε)
  /-- The sum of a base address and an offset is beyond the last address of the bus. -/
  | offBus

/-- A dialogue over a state that ends in an outcome and the state it leaves. -/
def Routine (I : Interface) (σ ε α : Type) : Type := σ → Dialogue I (Outcome ε α × σ)

namespace Routine

variable {I : Interface} {σ τ ε ε' α β : Type}

def bind (r : Routine I σ ε α) (f : α → Routine I σ ε β) : Routine I σ ε β := fun s =>
  (r s).bind fun
    | (.ok a, s) => f a s
    | (.failed e, s) => .done (.failed e, s)
    | (.offBus, s) => .done (.offBus, s)

instance : Monad (Routine I σ ε) where
  pure a := fun s => .done (.ok a, s)
  bind := bind

def fail (e : ε) : Routine I σ ε α := fun s => .done (.failed e, s)

def offBus : Routine I σ ε α := fun s => .done (.offBus, s)

def get : Routine I σ ε σ := fun s => .done (.ok s, s)

def modify (f : σ → σ) : Routine I σ ε Unit := fun s => .done (.ok (), f s)

def lift (d : Dialogue I α) : Routine I σ ε α := fun s => d.bind fun a => .done (.ok a, s)

def request (r : I.Request) : Routine I σ ε (I.Answer r) :=
  fun s => .ask r fun answer => .done (.ok answer, s)

def within (part : τ → σ) (update : τ → σ → τ) (r : Routine I σ ε α) : Routine I τ ε α :=
  fun t => (r (part t)).bind fun (outcome, s) => .done (outcome, update t s)

/-- Run a routine on a state of its own; the result is what came of it, and the state it left. -/
def on (r : Routine I τ ε α) (t : τ) : Routine I σ ε' (Except ε α × τ) := fun s =>
  (r t).bind fun
    | (.ok a, t) => .done (.ok (.ok a, t), s)
    | (.failed e, t) => .done (.ok (.error e, t), s)
    | (.offBus, _) => .done (.offBus, s)

def attempt (r : Routine I σ ε α) : Routine I σ ε' (Except ε α) := fun s =>
  (r s).bind fun
    | (.ok a, s) => .done (.ok (.ok a), s)
    | (.failed e, s) => .done (.ok (.error e), s)
    | (.offBus, s) => .done (.offBus, s)

def embed {J : Interface} (wider : I.Request → J.Request)
    (answer : (r : I.Request) → J.Answer (wider r) → I.Answer r) (r : Routine I σ ε α) :
    Routine J σ ε α := fun s => (r s).embed wider answer

def ofExcept : Except ε α → Routine I σ ε α
  | .ok a => pure a
  | .error e => fail e

def mapError (f : ε → ε') (r : Routine I σ ε α) : Routine I σ ε' α := fun s =>
  (r s).bind fun
    | (.ok a, s) => .done (.ok a, s)
    | (.failed e, s) => .done (.failed (f e), s)
    | (.offBus, s) => .done (.offBus, s)

end Routine
end Reflash
