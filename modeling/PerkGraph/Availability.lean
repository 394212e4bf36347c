import PerkGraph.Contract
import PerkGraph.Selection
import PerkGraph.Rule.Opening

/-! # Availability

Which requested nodes are in effect, and what state that leaves every node in.

A node is unlocked by a set of ids if it is a start or an edge from the set leads to it, and, if it is a gate,
its rule holds. The requested nodes in effect are the least set that every requested node it unlocks belongs
to. It is grown from nothing: passes over the requested nodes add whatever is unlocked by then, until a pass
adds nothing (`settle`). Nodes on a cycle therefore cannot keep each other selected.
-/

namespace PerkGraph

/-- Where a node stands for a selection and a team. -/
inductive NodeState where
  | available
  | selected
  | unavailable
deriving DecidableEq, Repr

instance : Vocabulary NodeState where
  all := [.available, .selected, .unavailable]
  name
    | .available => "available"
    | .selected => "selected"
    | .unavailable => "unavailable"

namespace Contract

variable (contract : Contract) (roster : Roster)

/-! ## Unlocked nodes -/

/-- Nothing keeps the node closed. Only a gate is ever closed, and one without a rule never opens. -/
def isOpen (node : Node) (selected : IdSet) : Bool :=
  if node.kind = .gate then
    match node.activeGate with
    | some (.ok rule) => rule.holds roster selected
    | _ => false
  else true

/-- There is a way into the node: it is a start, or an edge from a selected id leads to it. -/
def isReached (node : Node) (selected : IdSet) : Bool :=
  node.kind = .start || (contract.predecessors node.id).any fun id => id ∈ selected

/-- The ids that are selected unlock the node. -/
def isUnlocked (node : Node) (selected : IdSet) : Bool :=
  isOpen roster node selected && contract.isReached node selected

/-! ## The requested nodes in effect -/

/-- The ids retained so far, and the node as well if they unlock it. -/
def retain (retained : IdSet) (node : Node) : IdSet :=
  if node.id ∈ retained then retained
  else if contract.isUnlocked roster node retained then retained.insert node.id
  else retained

/-- One pass over the requested nodes, each judged by the ids retained before it. -/
def pass (requested : List Node) (retained : IdSet) : IdSet :=
  requested.foldl (contract.retain roster) retained

variable {contract roster}

theorem mem_retain_of_mem {retained : IdSet} {node : Node} {x : String} (h : x ∈ retained) :
    x ∈ contract.retain roster retained node := by
  unfold retain
  split
  · exact h
  · split
    · simp [h]
    · exact h

theorem mem_of_mem_retain {retained : IdSet} {node : Node} {x : String}
    (h : x ∈ contract.retain roster retained node) : x ∈ retained ∨ x = node.id := by
  unfold retain at h
  split at h
  · exact .inl h
  · split at h
    · exact (IdSet.mem_insert.1 h).symm
    · exact .inl h

theorem mem_pass_of_mem {requested : List Node} {retained : IdSet} {x : String}
    (h : x ∈ retained) : x ∈ contract.pass roster requested retained := by
  unfold pass
  induction requested generalizing retained with
  | nil => exact h
  | cons node rest ih => exact ih (mem_retain_of_mem h)

theorem mem_of_mem_pass {requested : List Node} {retained : IdSet} {x : String}
    (h : x ∈ contract.pass roster requested retained) :
    x ∈ retained ∨ ∃ node ∈ requested, node.id = x := by
  unfold pass at h
  induction requested generalizing retained with
  | nil => exact .inl h
  | cons node rest ih =>
    rcases ih h with hx | ⟨other, hmem, heq⟩
    · rcases mem_of_mem_retain hx with hx | rfl
      · exact .inl hx
      · exact .inr ⟨node, List.mem_cons_self, rfl⟩
    · exact .inr ⟨other, List.mem_cons_of_mem _ hmem, heq⟩

/-- A pass that changes anything adds a requested node. -/
theorem exists_mem_pass_of_ne {requested : List Node} {retained : IdSet}
    (h : contract.pass roster requested retained ≠ retained) :
    ∃ node ∈ requested, node.id ∈ contract.pass roster requested retained ∧ node.id ∉ retained := by
  apply Classical.byContradiction
  intro hno
  apply h
  ext x
  refine ⟨fun hx => ?_, mem_pass_of_mem⟩
  rcases mem_of_mem_pass hx with hmem | ⟨node, hmem, rfl⟩
  · exact hmem
  · exact Classical.byContradiction fun hout => hno ⟨node, hmem, hx, hout⟩

/-- A pass that changes anything leaves fewer requested ids out. -/
theorem missing_pass_lt {requested : List Node} {retained : IdSet}
    (h : contract.pass roster requested retained ≠ retained) :
    missing requested (contract.pass roster requested retained) < missing requested retained := by
  obtain ⟨node, hmem, hin, hout⟩ := exists_mem_pass_of_ne h
  exact missing_lt (fun _ => mem_pass_of_mem) hmem hout hin

variable (contract roster)

/-- Passes over the requested nodes until one adds nothing. -/
def settle (requested : List Node) (retained : IdSet) : IdSet :=
  let next := contract.pass roster requested retained
  if next = retained then retained else settle requested next
termination_by missing requested retained
decreasing_by exact missing_pass_lt ‹_›

/-- The selected ids that name nodes, in ascending order. -/
def requested (selection : Selection) : List Node :=
  selection.toIdSet.toList.filterMap contract.node?

/-- The selected ids that are in effect for this team. -/
def effective (selection : Selection) : IdSet :=
  contract.settle roster (contract.requested selection) .empty

/-! ## States -/

def stateOf (effective : IdSet) (node : Node) : NodeState :=
  if node.id ∈ effective then .selected
  else if contract.isUnlocked roster node effective then .available
  else .unavailable

def availability (selection : Selection) : List (String × NodeState) :=
  let effective := contract.effective roster selection
  contract.nodes.map fun node => (node.id, contract.stateOf roster effective node)

end Contract

end PerkGraph
