import Reflash.Host.Tool
/-!
# Endings

How a run of the program ends: the code that it exits with, and what it leaves on the error
output.
-/

namespace Reflash.Host

inductive Ending where
  | done
  | misused (cause : UsageError)
  | failed (cause : RunError)
  | offBus

namespace Ending

def ofOutcome {α : Type} : Outcome RunError α → Ending
  | .ok _ => done
  | .failed cause => failed cause
  | .offBus => offBus

/-- The code that the program exits with. A request for help is no failure. -/
def code : Ending → Nat
  | done | misused .displayHelp => 0
  | failed _ => 1
  | misused _ => 2
  | offBus => 101

def report : Ending → String
  | done | misused .displayHelp => ""
  | misused cause => "error: " ++ cause.name ++ "\n"
  | failed cause => cause.report
  | offBus => "attempt to add with overflow\n"

end Ending

def usage : String :=
  "reads, verifies and reprograms flash-ADC configuration ROMs\n\n" ++
  "USAGE:\n    reflash [OPTIONS] [ARGS]\n\n" ++
  "ARGS:\n" ++
  "    <FILE>       Firmware image: raw big-endian 32-bit words\n" ++
  "    <ADDRESS>    Board slot (1-21) or A24 base address; 0 means the first board found\n" ++
  "                 [default: 0]\n\n" ++
  "OPTIONS:\n" ++
  "        --all                Program every board in the crate\n" ++
  "    -c, --config <CONFIG>    Crate description, in TOML\n" ++
  "        --device <DEVICE>    VME window device, overriding the crate description\n" ++
  "        --force              With --all, also program boards already running the target\n" ++
  "                             firmware\n" ++
  "    -h, --help               Print help information\n" ++
  "        --id                 Print the ROM's ID and the board's firmware versions\n" ++
  "    -p, --program            Erase the ROM, program FILE into it, verify, and reboot the\n" ++
  "                             board\n" ++
  "    -s, --save               Save the ROM's contents to FILE\n" ++
  "        --simulate <N>       Run against N simulated boards instead of the bus\n" ++
  "    -v, --verify             Compare the ROM against FILE\n" ++
  "    -y, --yes                Don't ask for confirmation before erasing\n"

/-- The whole program: what is done for the words of a command line, and how it ends. -/
def program (words : List String) (colored : Bool) : Dialogue workstation Ending :=
  match Arguments.ofWords words with
  | .error .displayHelp => .ask (.print usage) fun _ => .done (.misused .displayHelp)
  | .error cause => .done (.misused cause)
  | .ok arguments => do
    let (outcome, _) ← arguments.run colored ()
    return .ofOutcome outcome

end Reflash.Host
