import PerkGraph.Availability

/-! # Transitions

How a selection changes: pruning what is no longer in effect, selecting a node that is available,
deselecting one that is selected. Each transition reports the ids it dropped along the way.
-/

namespace PerkGraph

inductive TransitionError where
  | unknownNode (id : String)
  | notAvailable (id : String) (state : NodeState)
  | notSelected (id : String)
deriving DecidableEq

def TransitionError.message : TransitionError → String
  | unknownNode id => "unknown node '" ++ id ++ "'"
  | notAvailable id state =>
    "node '" ++ id ++ "' is " ++ Vocabulary.name state ++ ", not available"
  | notSelected id => "node '" ++ id ++ "' is not selected"

/-- A changed selection and the ids that dropped out of it on their own. -/
structure SelectionUpdate where
  selection : Selection
  demoted : IdSet
deriving DecidableEq

namespace Contract

variable (contract : Contract) (roster : Roster)

/-- Drops every id that is not in effect, keeping the order of the others. -/
def prune (selection : Selection) : SelectionUpdate :=
  let effective := contract.effective roster selection
  { selection := selection.filter fun id => id ∈ effective
    demoted := selection.toIdSet.filter fun id => id ∉ effective }

/-- Prunes the selection and puts an available node at its end. -/
def select (selection : Selection) (id : String) : Except TransitionError SelectionUpdate :=
  match contract.node? id with
  | none => .error (.unknownNode id)
  | some node =>
    let update := contract.prune roster selection
    let selected := update.selection.toIdSet
    if id ∈ selected then .error (.notAvailable id .selected)
    else if contract.isUnlocked roster node selected then
      .ok { update with selection := update.selection.insert id }
    else .error (.notAvailable id .unavailable)

/-- Takes a selected node out and prunes what depended on it. -/
def deselect (selection : Selection) (id : String) : Except TransitionError SelectionUpdate :=
  if contract.node? id = none then .error (.unknownNode id)
  else if id ∈ contract.effective roster selection then
    .ok (contract.prune roster (selection.erase id))
  else .error (.notSelected id)

end Contract

end PerkGraph
