import Reflash.Host.Content
import Reflash.Host.OsError
import Reflash.Simulation.Crate
/-!
# What the tool asks of its workstation

The requests of the command line tool: everything that the update engine asks for, a bus to work
on, whole files, and a line of text to or from the user.
-/

namespace Reflash.Host

inductive ToolRequest where
  | engine (request : Request)
  | simulate (crate : SimulatedCrate)
  | openWindow (path : String)
  | failedCycles
  | readFile (path : String)
  | writeFile (path : String) (bytes : ByteArray)
  | print (text : String)
  | readLine

abbrev ToolRequest.Answer : ToolRequest → Type
  | engine request => request.Answer
  | openWindow _ => Except OsError Unit
  | failedCycles => Nat
  | readFile _ => Except OsError Content
  | writeFile _ _ => Except OsError Unit
  | readLine => Except OsError String
  | simulate _ | print _ => Unit

@[reducible] def workstation : Interface := ⟨ToolRequest, ToolRequest.Answer⟩

end Reflash.Host
