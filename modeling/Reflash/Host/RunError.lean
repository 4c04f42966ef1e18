import Reflash.Crate.Description
import Reflash.Host.Arguments
import Reflash.Image
import Reflash.Update.Failure
/-!
# Errors of a run

Why a run of the tool fails. An error is shown with what led to it: first what could not be done,
then the causes, each the cause of the one before it.
-/

namespace Reflash.Host

inductive RunError where
  | badArguments (cause : ArgumentError)
  | unreadableDescription (path : String) (cause : OsError)
  | badDescription (path text : String) (cause : DescriptionFault)
  | badCrateSize
  | noWindow (path : String) (cause : OsError)
  | noBoards
  | badSlot (cause : SlotError)
  | badImage (cause : ImageError)
  | romFailed (cause : RomError)
  | stepFailed (failure : StepFailure)
  | programmingFailed (failure : StepFailure)
  | noAnswer (cause : OsError)
  | aborted
  | boardsFailed (count : Nat)

namespace RunError

def chainOf (f : StepFailure) : List String := [f.message, f.cause.message]

def chain : RunError → List String
  | badArguments cause => [cause.message]
  | unreadableDescription path cause => ["reading " ++ path, cause.message]
  | badDescription path text cause => ["parsing " ++ path, cause.report text]
  | badCrateSize => [s!"can simulate 1 to {slotCount} boards"]
  | noWindow path cause => ["opening " ++ path, cause.message]
  | noBoards => ["no boards found"]
  | badSlot cause => [cause.message]
  | badImage cause => cause.message :: match cause with
    | .inaccessible _ cause => [cause.message]
    | _ => []
  | romFailed cause => [cause.message]
  | stepFailed failure => chainOf failure
  | programmingFailed failure => s!"programming slot {failure.slot.number}" :: chainOf failure
  | noAnswer cause => ["reading confirmation", cause.message]
  | aborted => ["aborted"]
  | boardsFailed count => [s!"{count} boards failed"]

def line (e : RunError) : String := ": ".intercalate e.chain

/-- A cause in a report: its first line behind `mark`, the others below the first. -/
def indented (mark : String) (cause : String) : String :=
  mark ++ ("\n" ++ "".pushn ' ' mark.length).intercalate (cause.splitOn "\n")

def indentedCauses : List String → List String
  | [cause] => [indented "    " cause]
  | causes => causes.zipIdx.map fun (cause, i) =>
    indented (Text.padLeft 5 ' ' (toString i) ++ ": ") cause

def report (e : RunError) : String :=
  match e.chain with
  | [] => ""
  | [text] => "Error: " ++ text ++ "\n"
  | text :: causes =>
    "Error: " ++ text ++ "\n\nCaused by:\n" ++ "\n".intercalate (indentedCauses causes) ++ "\n"

end RunError
end Reflash.Host
