/-!
# Steps of an update

The steps of a board's update in the order in which they run. A step also marks where a board
stopped.
-/

namespace Reflash

inductive Step where
  | init
  | erase
  | program
  | download
  | verify
  | reboot
  deriving DecidableEq, Repr

namespace Step

def all : List Step := [init, erase, program, download, verify, reboot]

def name : Step → String
  | init => "init"
  | erase => "erase"
  | program => "program"
  | download => "download"
  | verify => "verify"
  | reboot => "reboot"

def ofName? (name : String) : Option Step := all.find? fun step => step.name == name

def label : Step → String
  | init => "Init"
  | erase => "Erase"
  | program => "Program"
  | download => "Download"
  | verify => "Verify"
  | reboot => "Reboot"

end Step
end Reflash
