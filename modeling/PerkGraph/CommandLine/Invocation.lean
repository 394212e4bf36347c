import PerkGraph.CommandLine.Arguments
import PerkGraph.Config
import PerkGraph.Roster

/-! # Invocations

What a command line asks for: one command, the files to work with, and the form of its report.
-/

namespace PerkGraph

inductive Command where
  | validate (contract : String)
  | preview (contract : String)
  | select (contract node : String)
  | deselect (contract node : String)
  | roster (contract : String) (assignment : Assignment)
  | parseEffect (raw : String)
  | parseGate (raw : String)
deriving DecidableEq

/-- A command with the files to work with and, if it is given, the form of its report. -/
structure Invocation where
  config : String := "contract.toml"
  session : String := "session.json"
  format : Option OutputFormat := none
  command : Command
deriving DecidableEq

namespace Invocation

open Arguments

/-! ## Values -/

/-- A format, in any letter case but without blanks. -/
def readFormat? (value : String) : Option OutputFormat :=
  Vocabulary.all.find? fun format => Text.sameLetters (Vocabulary.name format) value

/-- A natural number of 32 bits; the numeral may have any sign that fits. -/
def readStat? (value : String) : Option UInt32 := do
  let n ← Text.readInt? value
  if 0 ≤ n ∧ n < 0x100000000 then some (UInt32.ofNat n.toNat) else none

/-- A natural number of 64 bits; the numeral has no minus sign. -/
def readSlot? (value : String) : Option Nat := do
  let n ← Text.readInt? value
  if value.toList.head? ≠ some '-' ∧ n < 0x10000000000000000 then some n.toNat else none

def globalOptions : List String := ["config", "session", "format"]

/-- The options of the command that puts a runner into a slot. -/
def runnerOptions : List String := ["slot", "type", "face", "muscle", "hacker", "ninja"]

/-- The option may have the value. -/
def isValue (option value : String) : Bool :=
  if option = "config" ∨ option = "session" then value ≠ ""
  else if option = "format" then (readFormat? value).isSome
  else if option = "slot" then (readSlot? value).isSome
  else if option = "type" then (Vocabulary.read? value : Option RunnerType).isSome
  else (readStat? value).isSome

/-! ## Commands -/

/-- The commands and how many arguments each has in positions. -/
def commandPositions : List (String × Nat) :=
  [("validate", 1), ("preview", 1), ("select", 2), ("deselect", 2), ("roster", 1),
    ("parse-effect", 1), ("parse-gate", 1), ("help", 0)]

/-- What may stand before the command. -/
def globalGrammar : Grammar where
  options := globalOptions
  positions := 0
  hasVersion := true
  commands := commandPositions.map fun command => command.1

/-- The commands whose first argument is a rule text; for the others it is the path of a contract. -/
def ruleCommands : List String := ["parse-effect", "parse-gate"]

/-- What may stand after a command. -/
def commandGrammar (name : String) : Grammar where
  options := if name = "roster" then globalOptions ++ runnerOptions else globalOptions
  positions := (commandPositions.lookup name).getD 0
  startsWithPath := name ∉ ruleCommands

/-- The runner that options describe, with the slot to put it into. Slot and type must be given. -/
def readAssignment? (values : List (String × String)) : Option Assignment := do
  let slot ← (values.lookup "slot").bind readSlot?
  let type ← (values.lookup "type").bind Vocabulary.read?
  let stat := fun name => ((values.lookup name).bind readStat?).getD 0
  let runner : Runner :=
    { type, face := stat "face", muscle := stat "muscle", hacker := stat "hacker"
      ninja := stat "ninja" }
  return { slot, runner }

/-- The command of a name with its arguments in positions and its options. -/
def readCommand? (name : String) (placed : List String) (values : List (String × String)) :
    Option Command :=
  match name, placed with
  | "parse-effect", [raw] => some (.parseEffect raw)
  | "parse-gate", [raw] => some (.parseGate raw)
  | "validate", [contract] => some (.validate contract)
  | "preview", [contract] => some (.preview contract)
  | "select", [contract, node] => some (.select contract node)
  | "deselect", [contract, node] => some (.deselect contract node)
  | "roster", [contract] => (readAssignment? values).map (.roster contract)
  | _, _ => none

/-- The answer to a request for help on commands: help, unless one of them does not exist. -/
def helpOn : List String → Stop
  | [] => .help
  | [name] => if (commandPositions.lookup name).isSome then .help else .usage
  | _ => .usage

/-! ## Command lines -/

/-- The invocation of a command line. An option behind the command takes precedence over the same one in
front of it. -/
def ofArguments (arguments : List String) : Except Stop Invocation := do
  let front ← Arguments.split globalGrammar isValue {} arguments
  let some (name, rest) := front.command | .error .usage
  if name = "help" then .error (helpOn rest)
  else
    let parts ← Arguments.split (commandGrammar name) isValue {} rest
    let values := parts.values ++ front.values
    let some command := readCommand? name parts.placed values | .error .usage
    .ok
      { config := (values.lookup "config").getD "contract.toml"
        session := (values.lookup "session").getD "session.json"
        format := (values.lookup "format").bind readFormat?
        command }

end Invocation

end PerkGraph
