/-!
# Reading a command line

Words become uses of parameters: switches, settings with a value, and two positional parameters.
A word that starts with one hyphen is a bunch of short names, one with two hyphens a long name;
behind a lone pair of hyphens every word is positional. Some faults stop the reading at once, the
others are found when all words have been read.
-/

namespace Reflash.Host

inductive Parameter where
  | program
  | save
  | verify
  | id
  | all
  | force
  | yes
  | help
  | config
  | device
  | simulate
  | file
  | address
  deriving DecidableEq

namespace Parameter

def named : List Parameter :=
  [program, save, verify, id, all, force, yes, help, config, device, simulate]

def long? : Parameter → Option String
  | program => "program"
  | save => "save"
  | verify => "verify"
  | id => "id"
  | all => "all"
  | force => "force"
  | yes => "yes"
  | help => "help"
  | config => "config"
  | device => "device"
  | simulate => "simulate"
  | file | address => none

def short? : Parameter → Option Char
  | program => 'p'
  | save => 's'
  | verify => 'v'
  | yes => 'y'
  | help => 'h'
  | config => 'c'
  | _ => none

def isPositional (p : Parameter) : Bool := p.long?.isNone

def isSetting : Parameter → Bool
  | config | device | simulate => true
  | _ => false

def ofLong? (name : String) : Option Parameter := named.find? fun p => p.long? == some name

def ofShort? (name : Char) : Option Parameter := named.find? fun p => p.short? == some name

end Parameter

inductive UsageError where
  /-- A word names no parameter, or is one position too many. -/
  | unknownArgument
  /-- A switch was given a value. -/
  | tooManyValues
  | displayHelp
  | emptyValue
  /-- A parameter needs another one that is not there. -/
  | missingRequiredArgument
  | unexpectedMultipleUsage
  | valueValidation
  deriving DecidableEq

def UsageError.name : UsageError → String
  | unknownArgument => "UnknownArgument"
  | tooManyValues => "TooManyValues"
  | displayHelp => "DisplayHelp"
  | emptyValue => "EmptyValue"
  | missingRequiredArgument => "MissingRequiredArgument"
  | unexpectedMultipleUsage => "UnexpectedMultipleUsage"
  | valueValidation => "ValueValidation"

/-- How a parameter was used: how often, and with which values. -/
structure Use where
  parameter : Parameter
  times : Nat
  values : List String

structure CommandLine where
  /-- The parameters used, in the order of their first uses. -/
  uses : List Use := []
  /-- The setting whose value would be the next word. -/
  waiting : Option Parameter := none
  /-- Every word that follows is positional. -/
  onlyPositional : Bool := false

namespace CommandLine

def use? (c : CommandLine) (p : Parameter) : Option Use := c.uses.find? fun u => u.parameter = p

def value? (c : CommandLine) (p : Parameter) : Option String :=
  (c.use? p).bind fun u => u.values.head?

def has (c : CommandLine) (p : Parameter) : Bool := (c.use? p).isSome

def change (c : CommandLine) (p : Parameter) (times : Nat) (values : List String) :
    CommandLine :=
  let uses :=
    if c.has p then
      c.uses.map fun u => if u.parameter = p then ⟨p, u.times + times, u.values ++ values⟩ else u
    else c.uses ++ [⟨p, times, values⟩]
  { c with uses, waiting := none }

def add (c : CommandLine) (p : Parameter) (values : List String) : CommandLine :=
  c.change p 1 values

def addSetting (c : CommandLine) (p : Parameter) : Option String → CommandLine
  | some value => c.add p [value]
  | none => { c.add p [] with waiting := some p }

def readLong (c : CommandLine) (name : String) (attached : Option String) :
    Except UsageError CommandLine :=
  match Parameter.ofLong? name with
  | none => .error .unknownArgument
  | some p =>
    if p.isSetting then .ok (c.addSetting p attached)
    else if attached.isSome then .error .tooManyValues
    else if p = .help then .error .displayHelp
    else .ok (c.add p [])

/-- Read short names. What follows the name of a setting in the same word is its value, from
which an equals sign in front is dropped. -/
def readShort (c : CommandLine) : List Char → Except UsageError CommandLine
  | [] => .ok c
  | name :: rest =>
    match Parameter.ofShort? name with
    | none => .error .unknownArgument
    | some p =>
      if p.isSetting then
        .ok (c.addSetting p (match rest with
          | [] => none
          | '=' :: value => some (String.ofList value)
          | value => some (String.ofList value)))
      else if p = .help then .error .displayHelp
      else readShort (c.add p []) rest

def readPlain (c : CommandLine) (word : String) : Except UsageError CommandLine :=
  match c.waiting, c.onlyPositional with
  | some p, false => .ok (c.change p 0 [word])
  | _, _ =>
    if !c.has .file then .ok (c.add .file [word])
    else if !c.has .address then .ok (c.add .address [word])
    else .error .unknownArgument

def readWord (c : CommandLine) (word : String) : Except UsageError CommandLine :=
  if c.onlyPositional then c.readPlain word
  else match word.toList with
    | ['-', '-'] => .ok { c with onlyPositional := true }
    | '-' :: '-' :: rest =>
      let (name, value) := rest.span (· != '=')
      c.readLong (String.ofList name) (match value with
        | '=' :: value => some (String.ofList value)
        | _ => none)
    | '-' :: first :: rest => c.readShort (first :: rest)
    | _ => c.readPlain word

def endsEarly (c : CommandLine) : Bool :=
  match c.waiting with
  | some p => (c.value? p).isNone
  | none => false

/-- What is wrong with one use: it has no value, one of its values cannot be, or it is one of
several. `accepts` tells which values a parameter can have. -/
def checkUse (accepts : Parameter → String → Bool) (u : Use) : Except UsageError Unit :=
  if u.parameter.isSetting ∧ u.values.isEmpty then .error .emptyValue
  else if !u.values.all (accepts u.parameter) then .error .valueValidation
  else if 1 < u.times ∧ !u.parameter.isPositional then .error .unexpectedMultipleUsage
  else .ok ()

def read (accepts : Parameter → String → Bool) (words : List String) :
    Except UsageError CommandLine := do
  let c ← words.foldlM readWord {}
  if c.endsEarly then throw .emptyValue
  if c.has .force && !c.has .all then throw .missingRequiredArgument
  c.uses.forM (checkUse accepts)
  return c

end CommandLine
end Reflash.Host
