import Reflash.Progress.Event
import Reflash.Progress.Remark
import Reflash.Routine
/-!
# What update routines ask for

The requests of the update routines: single cycles on the bus, pauses, and notes to whoever
watches. Only bus cycles have answers that matter.
-/

namespace Reflash

inductive Request where
  | read (address : UInt32)
  | write (address value : UInt32)
  | probe (address : UInt32)
  | pause (milliseconds : Nat)
  /-- One turn of a long-running loop, for a caller that counts turns. -/
  | tick
  | remark (remark : Remark)
  | report (event : Event)

abbrev Request.Answer : Request → Type
  | read _ => UInt32
  | probe _ => Bool
  | _ => Unit

@[reducible] def engine : Interface := ⟨Request, Request.Answer⟩

abbrev Exchange (α : Type) : Type := Dialogue engine α

abbrev Job (σ ε α : Type) : Type := Routine engine σ ε α

namespace Exchange

def tick : Exchange Unit := .ask .tick .done

def report (e : Event) : Exchange Unit := .ask (.report e) .done

def reportAll : List Event → Exchange Unit
  | [] => .done ()
  | e :: rest => .ask (.report e) fun _ => reportAll rest

def silent : Exchange Unit := .done ()

end Exchange

namespace Job

variable {σ ε : Type}

def ask (r : Request) : Job σ ε r.Answer := Routine.request (I := engine) r

def remark (r : Remark) : Job σ ε Unit := ask (.remark r)

/-- Let time go by; a pause of no length is left out. -/
def pause (milliseconds : Nat) : Job σ ε Unit :=
  if milliseconds = 0 then pure () else ask (.pause milliseconds)

end Job
end Reflash
