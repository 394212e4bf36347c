import PerkGraph.Text.Fields

/-! # Arguments

The grammar of command lines: options with a value, written `--name value` or `--name=value`, requests for
help, `--` before arguments that are no options, and all other arguments in their positions. Arguments are taken
from left to right, and the first that does not fit decides the answer.
-/

namespace PerkGraph.Arguments

/-- Why a command line is not carried out. -/
inductive Stop where
  /-- It does not fit the grammar. -/
  | usage
  | help
  | version
deriving DecidableEq

/-- What a command accepts. -/
structure Grammar where
  options : List String
  positions : Nat
  /-- Whether the argument in the first position must not be empty. -/
  startsWithPath : Bool := false
  hasVersion : Bool := false
  /-- The words at which the grammar of another command begins. -/
  commands : List String := []

/-- What has been taken so far. -/
structure Taken where
  /-- The values of options, last one first. -/
  values : List (String × String) := []
  /-- The arguments in positions, last one first. -/
  placed : List String := []
  /-- The option whose value comes next. -/
  awaiting : Option String := none
  /-- Whether `--` has come. -/
  ended : Bool := false

/-- A command line taken apart: its options and positions, and the command with its own arguments. -/
structure Parts where
  values : List (String × String)
  placed : List String
  command : Option (String × List String) := none

namespace Taken

/-- Takes the value of an option, which has none yet. -/
def value (taken : Taken) (option value : String) : Except Stop Taken :=
  if (taken.values.lookup option).isSome then .error .usage
  else .ok { taken with values := (option, value) :: taken.values, awaiting := none }

/-- Takes an argument in the next position, if there is one that it may have. -/
def place (taken : Taken) (grammar : Grammar) (argument : String) : Except Stop Taken :=
  if grammar.positions ≤ taken.placed.length then .error .usage
  else if argument = "" ∧ taken.placed = [] ∧ grammar.startsWithPath then .error .usage
  else .ok { taken with placed := argument :: taken.placed }

/-- Takes what follows two hyphens. -/
def long (taken : Taken) (grammar : Grammar) (body : String) : Except Stop Taken :=
  if taken.awaiting.isSome then .error .usage
  else
    match Text.cut '=' body with
    | some (name, given) =>
      if name ∈ grammar.options then taken.value name given else .error .usage
    | none =>
      if body ∈ grammar.options then .ok { taken with awaiting := some body }
      else if body = "help" then .error .help
      else if body = "version" ∧ grammar.hasVersion then .error .version
      else .error .usage

/-- Takes what follows one hyphen. -/
def short (taken : Taken) (grammar : Grammar) (body : List Char) : Except Stop Taken :=
  if taken.awaiting.isSome then .error .usage
  else if body.head? = some 'h' then .error .help
  else if body.head? = some 'V' ∧ grammar.hasVersion then .error .version
  else .error .usage

def take (taken : Taken) (grammar : Grammar) (argument : String) : Except Stop Taken :=
  if taken.ended then taken.place grammar argument
  else
    match argument.toList with
    | ['-', '-'] =>
      if taken.awaiting.isSome then .error .usage else .ok { taken with ended := true }
    | '-' :: '-' :: body => taken.long grammar (String.ofList body)
    | '-' :: c :: body => taken.short grammar (c :: body)
    | _ =>
      match taken.awaiting with
      | some option => taken.value option argument
      | none => taken.place grammar argument

/-- The argument names a command here. -/
def namesCommand (taken : Taken) (grammar : Grammar) (argument : String) : Bool :=
  !taken.ended && taken.awaiting.isNone && argument ∈ grammar.commands

end Taken

/-- Takes a command line apart, after what has been taken of it. `check` judges the values of options as
they come. -/
def split (grammar : Grammar) (check : String → String → Bool) :
    Taken → List String → Except Stop Parts
  | taken, [] =>
    if taken.awaiting.isSome then .error .usage
    else .ok { values := taken.values, placed := taken.placed.reverse }
  | taken, argument :: rest =>
    if taken.namesCommand grammar argument then
      .ok
        { values := taken.values, placed := taken.placed.reverse
          command := some (argument, rest) }
    else do
      let next ← taken.take grammar argument
      if next.values.all fun given => check given.1 given.2 then split grammar check next rest
      else .error .usage

end PerkGraph.Arguments
