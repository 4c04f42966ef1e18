import Reflash.Progress.Event
/-!
# Progress on a console

A title opens a line, every so many ticks add a plus sign to it, and the end of the step closes
it. A line of text breaks an open line first.
-/

namespace Reflash

/-- How many ticks make one plus sign in a step; zero shows none. An erase polls some hundred
thousand times, a reboot some hundred. -/
def defaultPrescale : Step → Nat
  | .init => 1
  | .erase => 5000
  | .program | .download | .verify => 0x4000
  | .reboot => 100

structure Console where
  prescale : Step → Nat := defaultPrescale
  /-- Ticks since the last title. -/
  ticks : UInt32 := 0
  /-- A title has been printed and its line not yet ended. -/
  lineOpen : Bool := false

namespace Console

def withPrescale (c : Console) (step : Step) (every : Nat) : Console :=
  { c with prescale := fun s => if s = step then every else c.prescale s }

def print (c : Console) (e : Event) : Console × String :=
  match e.notice with
  | .began title => ({ c with ticks := 0, lineOpen := true }, title.getD "" ++ " ")
  | .ticked =>
    let ticks := c.ticks + 1
    let every := c.prescale e.step
    ({ c with ticks }, if every ≠ 0 ∧ ticks.toNat % every = 0 then "+" else "")
  | .done => ({ c with lineOpen := false }, " done\n")
  | .line text =>
    ({ c with lineOpen := false }, (if c.lineOpen then "\n" else "") ++ text.getD "" ++ "\n")

def printAll (c : Console) (events : List Event) : Console × String :=
  events.foldl (fun (c, text) e => let (c, more) := c.print e; (c, text ++ more)) (c, "")

end Console
end Reflash
