import Mathlib.Data.List.Forall2
import PerkGraph.Proofs.Stability

/-!
# Contracts that open alike

Selecting asks a contract and a team for one thing only: which nodes a set of ids unlocks. Where two
contracts, each with its team, pair up their nodes by id and unlock both nodes of a pair or neither
(`Contract.UnlocksLike`), selecting comes to the same (`UnlocksLike.selectsLike`): what is in effect in one is
closed in the other. Two contracts with the same ids, kinds, edges and rules of gates
(`Contract.OpensLike`) unlock alike for every team (`OpensLike.unlocksLike`).
-/

namespace PerkGraph

/-! ## Nodes -/

namespace Node

/-- The rule that the node opens by, if it is a gate with a rule. -/
def opening? (node : Node) : Option GateRule :=
  node.activeGate.bind Except.toOption

/-- Two nodes open alike. -/
structure OpensLike (node twin : Node) : Prop where
  id_eq : node.id = twin.id
  kind_eq : node.kind = twin.kind
  opening_eq : node.opening? = twin.opening?
  mem_connections_iff : ∀ id, id ∈ node.connections ↔ id ∈ twin.connections

theorem OpensLike.symm {node twin : Node} (h : node.OpensLike twin) : twin.OpensLike node where
  id_eq := h.id_eq.symm
  kind_eq := h.kind_eq.symm
  opening_eq := h.opening_eq.symm
  mem_connections_iff id := (h.mem_connections_iff id).symm

end Node

/-! ## Unlocking alike -/

namespace Contract

/-- Among nodes that pair up, like ids with like ids, an id finds a pair or nothing. -/
theorem rel_find?_id {R : Node → Node → Prop} (hid : ∀ node twin, R node twin → node.id = twin.id)
    {nodes twins : List Node} (h : List.Forall₂ R nodes twins) (id : String) :
    Option.Rel R (nodes.find? fun node => node.id == id) (twins.find? fun twin => twin.id == id) := by
  induction h with
  | nil => exact .none
  | @cons node twin _ _ hnode _ ih =>
    simp only [List.find?_cons, hid node twin hnode]
    cases twin.id == id with
    | true => exact .some hnode
    | false => exact ih

theorem exists_of_rel_some {R : Node → Node → Prop} {node : Node} {found : Option Node}
    (h : Option.Rel R (some node) found) : ∃ twin, found = some twin ∧ R node twin := by
  cases h with
  | some hnode => exact ⟨_, rfl, hnode⟩

theorem eq_none_iff_of_rel {R : Node → Node → Prop} {found twin : Option Node}
    (h : Option.Rel R found twin) : found = none ↔ twin = none := by
  cases h <;> simp

/-- Selecting comes to the same in two contracts, each with a team. -/
structure SelectsLike (contract : Contract) (roster : Roster) (other : Contract) (team : Roster) :
    Prop where
  effective_eq : ∀ selection, contract.effective roster selection = other.effective team selection
  availability_eq : ∀ selection,
    contract.availability roster selection = other.availability team selection
  prune_eq : ∀ selection, contract.prune roster selection = other.prune team selection
  select_eq : ∀ selection id,
    contract.select roster selection id = other.select team selection id
  deselect_eq : ∀ selection id,
    contract.deselect roster selection id = other.deselect team selection id

/-- The nodes of two contracts pair up by id, so that every set of ids unlocks both nodes of a pair for their
teams, or neither. -/
def UnlocksLike (contract : Contract) (roster : Roster) (other : Contract) (team : Roster) : Prop :=
  List.Forall₂ (fun node twin => node.id = twin.id ∧
    ∀ s, contract.isUnlocked roster node s = other.isUnlocked team twin s) contract.nodes other.nodes

namespace UnlocksLike

variable {contract other : Contract} {roster team : Roster}

theorem symm (h : contract.UnlocksLike roster other team) :
    other.UnlocksLike team contract roster :=
  (List.Forall₂.flip h).imp fun _ _ hnode => ⟨hnode.1.symm, fun s => (hnode.2 s).symm⟩

/-- An id finds a pair of nodes that are unlocked alike, or none in either contract. -/
theorem rel_node? (h : contract.UnlocksLike roster other team) (id : String) :
    Option.Rel (fun node twin => node.id = twin.id ∧
      ∀ s, contract.isUnlocked roster node s = other.isUnlocked team twin s)
      (contract.node? id) (other.node? id) :=
  rel_find?_id (fun _ _ hlike => hlike.1) h id

theorem effective_subset (h : contract.UnlocksLike roster other team) (selection : Selection) :
    contract.effective roster selection ⊆ other.effective team selection := by
  refine effective_subset_of_isClosed fun id hid node hnode hunlocked => ?_
  obtain ⟨twin, htwin, -, hlike⟩ := exists_of_rel_some (hnode ▸ h.rel_node? id)
  rw [hlike] at hunlocked
  exact effective_isClosed id hid twin htwin hunlocked

variable (h : contract.UnlocksLike roster other team)
include h

theorem effective_eq (selection : Selection) :
    contract.effective roster selection = other.effective team selection :=
  IdSet.subset_antisymm (h.effective_subset selection) (h.symm.effective_subset selection)

theorem availability_eq (selection : Selection) :
    contract.availability roster selection = other.availability team selection := by
  unfold availability
  rw [← List.forall₂_eq_eq_eq, List.forall₂_map_left_iff, List.forall₂_map_right_iff]
  refine List.Forall₂.imp (fun node twin hlike => ?_) h
  rw [stateOf, stateOf, h.effective_eq, hlike.2, hlike.1]

theorem prune_eq (selection : Selection) :
    contract.prune roster selection = other.prune team selection := by
  rw [prune, prune, h.effective_eq]

theorem select_eq (selection : Selection) (id : String) :
    contract.select roster selection id = other.select team selection id := by
  unfold select
  rw [h.prune_eq]
  have hrel := h.rel_node? id
  generalize contract.node? id = found, other.node? id = twin at hrel ⊢
  cases hrel with
  | none => rfl
  | some hlike => simp only [hlike.2]

theorem deselect_eq (selection : Selection) (id : String) :
    contract.deselect roster selection id = other.deselect team selection id := by
  simp only [deselect, h.effective_eq, h.prune_eq, eq_none_iff_of_rel (h.rel_node? id)]

/-- **Unlocking decides everything else**: what is in effect, the states and the transitions. -/
theorem selectsLike : contract.SelectsLike roster other team :=
  ⟨h.effective_eq, h.availability_eq, h.prune_eq, h.select_eq, h.deselect_eq⟩

end UnlocksLike

/-! ## Opening alike -/

/-- The nodes of two contracts open alike, one by one. -/
def OpensLike (contract other : Contract) : Prop :=
  List.Forall₂ Node.OpensLike contract.nodes other.nodes

theorem isOpen_eq_opening? (roster : Roster) (node : Node) (selected : IdSet) :
    isOpen roster node selected =
      (node.kind != .gate || node.opening?.any fun rule => rule.holds roster selected) := by
  unfold isOpen Node.opening?
  by_cases hkind : node.kind = .gate
  · rcases hgate : node.activeGate with _ | _ | rule <;> simp [hkind, Except.toOption]
  · simp [hkind]

namespace OpensLike

variable {contract other : Contract}

theorem symm (h : contract.OpensLike other) : other.OpensLike contract :=
  (List.Forall₂.flip h).imp fun _ _ hnode => hnode.symm

/-- An id finds like nodes in both contracts, or none in either. -/
theorem rel_node? (h : contract.OpensLike other) (id : String) :
    Option.Rel Node.OpensLike (contract.node? id) (other.node? id) :=
  rel_find?_id (fun _ _ hlike => hlike.id_eq) h id

theorem node?_eq_none_iff (h : contract.OpensLike other) {id : String} :
    contract.node? id = none ↔ other.node? id = none :=
  eq_none_iff_of_rel (h.rel_node? id)

theorem exists_twin (h : contract.OpensLike other) {id : String} {node : Node}
    (hnode : contract.node? id = some node) :
    ∃ twin, other.node? id = some twin ∧ node.OpensLike twin :=
  exists_of_rel_some (hnode ▸ h.rel_node? id)

theorem hasEdge_imp (h : contract.OpensLike other) {source target : String}
    (hedge : contract.HasEdge source target) : other.HasEdge source target := by
  obtain ⟨node, hnode, htarget⟩ := hedge
  obtain ⟨twin, htwin, hlike⟩ := h.exists_twin hnode
  exact ⟨twin, htwin, (hlike.mem_connections_iff target).1 htarget⟩

theorem hasEdge_iff (h : contract.OpensLike other) {source target : String} :
    contract.HasEdge source target ↔ other.HasEdge source target :=
  ⟨h.hasEdge_imp, h.symm.hasEdge_imp⟩

theorem isUnlocked_eq (h : contract.OpensLike other) (roster : Roster) {node twin : Node}
    (hnode : node.OpensLike twin) (selected : IdSet) :
    contract.isUnlocked roster node selected = other.isUnlocked roster twin selected := by
  have hopen : isOpen roster node selected = isOpen roster twin selected := by
    rw [isOpen_eq_opening?, isOpen_eq_opening?, hnode.kind_eq, hnode.opening_eq]
  have hreached : contract.isReached node selected = other.isReached twin selected := by
    rw [Bool.eq_iff_iff, isReached_iff, isReached_iff, hnode.kind_eq, hnode.id_eq]
    simp only [h.hasEdge_iff]
  rw [isUnlocked, isUnlocked, hopen, hreached]

theorem unlocksLike (h : contract.OpensLike other) (roster : Roster) :
    contract.UnlocksLike roster other roster :=
  List.Forall₂.imp (fun _ _ hnode => ⟨hnode.id_eq, h.isUnlocked_eq roster hnode⟩) h

/-! What follows for selecting, team by team. -/

variable (h : contract.OpensLike other) (roster : Roster) (selection : Selection)
include h

theorem effective_eq : contract.effective roster selection = other.effective roster selection :=
  (h.unlocksLike roster).effective_eq selection

theorem availability_eq :
    contract.availability roster selection = other.availability roster selection :=
  (h.unlocksLike roster).availability_eq selection

theorem prune_eq : contract.prune roster selection = other.prune roster selection :=
  (h.unlocksLike roster).prune_eq selection

theorem select_eq (id : String) :
    contract.select roster selection id = other.select roster selection id :=
  (h.unlocksLike roster).select_eq selection id

theorem deselect_eq (id : String) :
    contract.deselect roster selection id = other.deselect roster selection id :=
  (h.unlocksLike roster).deselect_eq selection id

end OpensLike

end Contract

end PerkGraph
