import PerkGraph.Proofs.Stability

/-!
# What the states say

A node's state tells what a request for it would come to: it is in effect already, it would be in effect
if it were requested as well, or it would not (`stateOf_effective_iff`). The request itself does not help:
an id comes into effect only if the ids in effect without it unlock it (`mem_effective_insert`). Selecting
and deselecting find the same states by ways of their own, the one on the pruned selection and the other on
the ids in effect (`select_of_mem_availability`, `deselect_of_mem_availability`).
-/

namespace PerkGraph

namespace Contract

variable {contract : Contract} {roster : Roster} {selection : Selection} {id : String} {node : Node}

/-! ## One more request -/

theorem effective_subset_insert :
    contract.effective roster selection ⊆ contract.effective roster (selection.insert id) :=
  effective_mono fun _ hx => Selection.mem_insert.2 (.inl hx)

/-- Selecting a node takes none of the ids in effect away. -/
theorem effective_subset_of_select {update : SelectionUpdate}
    (h : contract.select roster selection id = .ok update) :
    contract.effective roster selection ⊆ contract.effective roster update.selection := by
  obtain ⟨-, -, -, -, rfl⟩ := select_eq_ok_iff.1 h
  rw [← effective_prune]
  exact effective_subset_insert

theorem mem_effective_insert (hnode : contract.node? id = some node) :
    id ∈ contract.effective roster (selection.insert id) ↔
      id ∈ contract.effective roster selection ∨
        contract.isUnlocked roster node (contract.effective roster selection) = true := by
  constructor
  · intro hin
    by_cases hunlocked : contract.isUnlocked roster node (contract.effective roster selection) = true
    · exact .inr hunlocked
    · -- the ids in effect are closed under the larger request, so they are all that it yields
      have hclosed : contract.IsClosed roster (selection.insert id)
          (contract.effective roster selection) := by
        intro x hx other hother hnow
        rcases Selection.mem_insert.1 hx with hx | rfl
        · exact effective_isClosed x hx other hother hnow
        · obtain rfl : node = other := Option.some.inj (hnode.symm.trans hother)
          exact absurd hnow hunlocked
      exact .inl (effective_subset_of_isClosed hclosed id hin)
  · rintro (hin | hunlocked)
    · exact effective_subset_insert id hin
    · have hid : id ∈ selection.insert id := Selection.mem_insert.2 (.inr rfl)
      exact effective_isClosed id hid node hnode (isUnlocked_mono effective_subset_insert hunlocked)

/-! ## States -/

theorem stateOf_eq_iff (s : IdSet) (node : Node) (state : NodeState) :
    contract.stateOf roster s node = state ↔
      match state with
      | .selected => node.id ∈ s
      | .available => node.id ∉ s ∧ contract.isUnlocked roster node s = true
      | .unavailable => node.id ∉ s ∧ contract.isUnlocked roster node s = false := by
  unfold stateOf
  by_cases hin : node.id ∈ s
  · cases state <;> simp [hin]
  · cases contract.isUnlocked roster node s <;> cases state <;> simp [hin]

theorem stateOf_effective_iff (hnode : contract.node? id = some node) (state : NodeState) :
    contract.stateOf roster (contract.effective roster selection) node = state ↔
      match state with
      | .selected => id ∈ contract.effective roster selection
      | .available => id ∉ contract.effective roster selection ∧
          id ∈ contract.effective roster (selection.insert id)
      | .unavailable => id ∉ contract.effective roster (selection.insert id) := by
  rw [stateOf_eq_iff, id_of_node? hnode, mem_effective_insert hnode]
  cases state with
  | selected => exact Iff.rfl
  | available => exact and_congr_right fun hout => (or_iff_right hout).symm
  | unavailable => simp only [not_or, Bool.not_eq_true]

theorem mem_availability {state : NodeState} :
    (id, state) ∈ contract.availability roster selection ↔
      ∃ node, contract.node? id = some node ∧
        contract.stateOf roster (contract.effective roster selection) node = state := by
  simp only [availability, List.mem_map, Prod.mk.injEq, node?_eq_some_iff]
  constructor
  · rintro ⟨node, hmem, hid, hstate⟩
    exact ⟨node, ⟨hmem, hid⟩, hstate⟩
  · rintro ⟨node, ⟨hmem, hid⟩, hstate⟩
    exact ⟨node, hmem, hid, hstate⟩

theorem exists_mem_availability_iff :
    (∃ state, (id, state) ∈ contract.availability roster selection) ↔
      ∃ node, contract.node? id = some node := by
  constructor
  · rintro ⟨state, hstate⟩
    obtain ⟨node, hnode, -⟩ := mem_availability.1 hstate
    exact ⟨node, hnode⟩
  · rintro ⟨node, hnode⟩
    exact ⟨_, mem_availability.2 ⟨node, hnode, rfl⟩⟩

theorem isAscending_availability :
    IsAscending Prod.fst (contract.availability roster selection) := by
  unfold IsAscending availability
  rw [List.pairwise_map]
  exact contract.ascending

/-! ## Transitions decide by the state -/

theorem select_of_node?_eq_none (h : contract.node? id = none) :
    contract.select roster selection id = .error (.unknownNode id) := by
  unfold select
  rw [h]

theorem deselect_of_node?_eq_none (h : contract.node? id = none) :
    contract.deselect roster selection id = .error (.unknownNode id) := by
  unfold deselect
  rw [if_pos h]

theorem select_of_mem_availability {state : NodeState}
    (h : (id, state) ∈ contract.availability roster selection) :
    contract.select roster selection id =
      if state = .available then
        .ok { contract.prune roster selection with
          selection := (contract.prune roster selection).selection.insert id }
      else .error (.notAvailable id state) := by
  obtain ⟨node, hnode, rfl⟩ := mem_availability.1 h
  unfold select stateOf
  simp only [hnode, toIdSet_prune, id_of_node? hnode]
  by_cases hin : id ∈ contract.effective roster selection
  · simp [hin]
  · cases contract.isUnlocked roster node (contract.effective roster selection) <;> simp [hin]

theorem deselect_of_mem_availability {state : NodeState}
    (h : (id, state) ∈ contract.availability roster selection) :
    contract.deselect roster selection id =
      if state = .selected then .ok (contract.prune roster (selection.erase id))
      else .error (.notSelected id) := by
  obtain ⟨node, hnode, rfl⟩ := mem_availability.1 h
  unfold deselect
  rw [if_neg (by simp [hnode])]
  simp only [stateOf_eq_iff, id_of_node? hnode]

/-! ## The main statement -/

/-- **The states and the transitions agree**, on stale selections too. Every node has one state, and no
other id has any: to both transitions such an id is unknown. Of a node the state tells which transition
goes through and how the other is refused, and it answers what requesting the node would come to. -/
theorem availability_agrees (contract : Contract) (roster : Roster) (selection : Selection) :
    let states := contract.availability roster selection
    IsAscending Prod.fst states ∧
    (∀ id, (∃ state, (id, state) ∈ states) ↔ ∃ node, contract.node? id = some node) ∧
    (∀ id, (contract.select roster selection id = .error (.unknownNode id) ↔
        ∀ state, (id, state) ∉ states) ∧
      (contract.deselect roster selection id = .error (.unknownNode id) ↔
        ∀ state, (id, state) ∉ states)) ∧
    ∀ id state, (id, state) ∈ states →
      ((∃ update, contract.select roster selection id = .ok update) ↔ state = .available) ∧
      (state ≠ .available →
        contract.select roster selection id = .error (.notAvailable id state)) ∧
      ((∃ update, contract.deselect roster selection id = .ok update) ↔ state = .selected) ∧
      (state ≠ .selected → contract.deselect roster selection id = .error (.notSelected id)) ∧
      (state = .selected ↔ id ∈ contract.effective roster selection) ∧
      (state = .available ↔ id ∉ contract.effective roster selection ∧
        id ∈ contract.effective roster (selection.insert id)) ∧
      (state = .unavailable ↔ id ∉ contract.effective roster (selection.insert id)) := by
  intro states
  refine ⟨isAscending_availability, fun id => exists_mem_availability_iff, fun id => ?_,
    fun id state hstate => ?_⟩
  · by_cases hkey : ∃ state, (id, state) ∈ states
    · -- a node is never unknown: its state decides
      obtain ⟨state, hstate⟩ := hkey
      rw [select_of_mem_availability hstate, deselect_of_mem_availability hstate]
      have hno : ¬∀ state, (id, state) ∉ states := fun hall => hall state hstate
      constructor
      · split <;> simp [hno]
      · split <;> simp [hno]
    · have hnode : contract.node? id = none := by
        rw [exists_mem_availability_iff] at hkey
        exact Option.eq_none_iff_forall_ne_some.2 fun node hnode => hkey ⟨node, hnode⟩
      rw [select_of_node?_eq_none hnode, deselect_of_node?_eq_none hnode]
      simpa using hkey
  · rw [select_of_mem_availability hstate, deselect_of_mem_availability hstate]
    obtain ⟨node, hnode, rfl⟩ := mem_availability.1 hstate
    refine ⟨?_, fun hne => if_neg hne, ?_, fun hne => if_neg hne,
      stateOf_effective_iff hnode .selected, stateOf_effective_iff hnode .available,
      stateOf_effective_iff hnode .unavailable⟩
    · split <;> simp [*]
    · split <;> simp [*]

end Contract

end PerkGraph
