/-!
# Dialogues

A dialogue is a computation that asks the outside for things and goes on with the answers: it is
done, or it asks one request and continues, for every possible answer, as another dialogue. What
the answers are is left to a handler, so a statement about a dialogue holds on any hardware.
-/

namespace Reflash

structure Interface where
  Request : Type
  Answer : Request → Type

/-- A computation that asks requests of an interface. It always ends. -/
inductive Dialogue (I : Interface) (α : Type) : Type where
  | done (result : α)
  | ask (request : I.Request) (next : I.Answer request → Dialogue I α)

def Handler (I : Interface) (σ : Type) : Type :=
  (request : I.Request) → σ → I.Answer request × σ

namespace Dialogue

variable {I J : Interface} {σ α β γ : Type}

def bind : Dialogue I α → (α → Dialogue I β) → Dialogue I β
  | done a, f => f a
  | ask request next, f => ask request fun answer => (next answer).bind f

instance : Monad (Dialogue I) where
  pure := done
  bind := bind

def request (r : I.Request) : Dialogue I (I.Answer r) := ask r done

def run (h : Handler I σ) : Dialogue I α → σ → α × σ
  | done a, s => (a, s)
  | ask r next, s =>
    let (answer, s) := h r s
    (next answer).run h s

def embed (wider : I.Request → J.Request)
    (answer : (r : I.Request) → J.Answer (wider r) → I.Answer r) : Dialogue I α → Dialogue J α
  | done a => done a
  | ask r next => ask (wider r) fun a => (next (answer r a)).embed wider answer

theorem bind_done (d : Dialogue I α) : d.bind done = d := by
  induction d with
  | done a => rfl
  | ask r next ih => exact congrArg (ask r) (funext ih)

theorem bind_assoc (d : Dialogue I α) (f : α → Dialogue I β) (g : β → Dialogue I γ) :
    (d.bind f).bind g = d.bind fun a => (f a).bind g := by
  induction d with
  | done a => rfl
  | ask r next ih => exact congrArg (ask r) (funext ih)

instance : LawfulMonad (Dialogue I) :=
  LawfulMonad.mk' (Dialogue I) bind_done (fun _ _ => rfl) bind_assoc

theorem run_bind (h : Handler I σ) (d : Dialogue I α) (f : α → Dialogue I β) (s : σ) :
    (d.bind f).run h s = (f (d.run h s).1).run h (d.run h s).2 := by
  induction d generalizing s with
  | done a => rfl
  | ask r next ih => exact ih _ _

end Dialogue
end Reflash
