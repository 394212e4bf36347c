import PerkGraph.Contract
import PerkGraph.Roster

/-! # When a condition holds

A condition is judged in a situation: a contract, a team, a set of selected ids, and an answer to the
conditions that the rules leave to extensions.
-/

namespace PerkGraph

/-! ## Extensions -/

/-- A question that the rules leave to an extension. -/
structure ExtensionQuery where
  kind : ExtensionKind
  argument : Option String
  /-- The node whose effect asks. -/
  subject : String
  selected : IdSet

/-- Answers to extension conditions. No answer is an error: the name of a kind that nobody knows. -/
abbrev Extensions := ExtensionQuery → Except String Bool

namespace Extensions

/-- Nobody answers. -/
def unresolved : Extensions := fun query => .error (Vocabulary.name query.kind)

/-- An answer for the questions that fit: a fixed one, or that enough nodes are selected. -/
structure Rule where
  /-- The name of the kind, letter for letter. -/
  kind : String
  /-- The argument asked about, if it matters; the inner `none` is a missing argument. -/
  argument : Option (Option String) := none
  /-- The node that asks, if it matters. -/
  subject : Option String := none
  minSelected : Option Nat := none
  holds : Bool := false

namespace Rule

/-- The question fits the rule. -/
def fits (rule : Rule) (query : ExtensionQuery) : Bool :=
  rule.kind == Vocabulary.name query.kind
    && rule.argument.all (fun argument => argument == query.argument)
    && rule.subject.all (fun subject => subject == query.subject)

def answer (rule : Rule) (query : ExtensionQuery) : Bool :=
  match rule.minSelected with
  | some least => query.selected.size ≥ least
  | none => rule.holds

end Rule

/-- The first rule that fits answers. -/
def ofRules (rules : List Rule) : Extensions := fun query =>
  match rules.find? fun rule => rule.fits query with
  | some rule => .ok (rule.answer query)
  | none => unresolved query

end Extensions

/-! ## Situations -/

/-- What a condition is judged by. -/
structure Situation where
  contract : Contract
  roster : Roster
  selected : IdSet
  extensions : Extensions := .unresolved

namespace Situation

/-- The colors of the selected nodes whose ids pass a test. -/
def colors (situation : Situation) (p : String → Bool) : List NodeColor :=
  (situation.selected.toList.filter p).filterMap fun id =>
    (situation.contract.node? id).map Node.color

/-- Whether a condition holds for an effect of the node `subject`. Only an extension may leave that open, and
then the kind that nobody knows is the error. A node does not lend its own color to itself, except in a
combination. -/
def holds (situation : Situation) (condition : Condition) (subject : String) :
    Except String Bool :=
  match condition with
  | .always => .ok true
  | .runnerType type => .ok (situation.roster.hasType type)
  | .runnerStat stat comparison value =>
    .ok (comparison.holds (situation.roster.total stat) value.val)
  | .nodeColor color => .ok ((situation.colors fun id => id != subject).contains color)
  | .nodeColorCombo colors =>
    let present := situation.colors fun _ => true
    .ok (colors.all fun color => present.contains color)
  | .extension kind argument =>
    situation.extensions { kind, argument, subject, selected := situation.selected }

end Situation

end PerkGraph
