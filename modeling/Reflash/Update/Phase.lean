import Reflash.Update.Failure
/-!
# Phases of a board's update

How far a board has come. The phases follow one another strictly forward; a failure is a phase of
its own that keeps what went wrong.
-/

namespace Reflash

inductive Phase where
  | init
  | reset
  | ready
  | erasing
  | erased
  | programmed
  | downloaded
  | verified
  | rebooting
  | rebooted
  | failed (failure : StepFailure)
  deriving DecidableEq

namespace Phase

def failure? : Phase → Option StepFailure
  | failed f => some f
  | _ => none

def name : Phase → String
  | init => "Init"
  | reset => "Reset"
  | ready => "Ready"
  | erasing => "Erasing"
  | erased => "Erased"
  | programmed => "Programmed"
  | downloaded => "Downloaded"
  | verified => "Verified"
  | rebooting => "Rebooting"
  | rebooted => "Rebooted"
  | failed f => s!"Failed({f.step.label})"

end Phase
end Reflash
