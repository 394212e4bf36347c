import PerkGraph.Proofs.LeastSelection
import PerkGraph.Transition

/-!
# Stable selections

A selection is stable if all of it is in effect. Pruning leaves a stable selection (`prune_isStable`), and so
does selecting an available node (`select_isStable`), which puts one id at the end of a pruned selection and
computes nothing again: the ids in effect only grow with the request (`effective_mono`), so they still unlock
whatever they unlocked before.
-/

namespace PerkGraph

namespace Contract

variable {contract : Contract} {roster : Roster} {selection : Selection}

/-! ## More requests, more in effect -/

theorem effective_subset_toIdSet : contract.effective roster selection ⊆ selection.toIdSet :=
  fun _ h => Selection.mem_toIdSet.2 (mem_effective_iff.1 h).1

theorem effective_mono {s t : Selection} (hst : ∀ x ∈ s, x ∈ t) :
    contract.effective roster s ⊆ contract.effective roster t :=
  effective_subset_of_isClosed fun id hid node hnode hunlocked =>
    effective_isClosed id (hst id hid) node hnode hunlocked

/-- The order of the requests does not matter. -/
theorem effective_congr {s t : Selection} (hst : ∀ x, x ∈ s ↔ x ∈ t) :
    contract.effective roster s = contract.effective roster t :=
  IdSet.subset_antisymm (effective_mono fun x => (hst x).1) (effective_mono fun x => (hst x).2)

/-- Requests that are not in effect may be dropped. -/
theorem effective_eq_of_subset {s t : Selection} (hts : ∀ x ∈ t, x ∈ s)
    (hin : ∀ x ∈ contract.effective roster s, x ∈ t) :
    contract.effective roster t = contract.effective roster s := by
  have hle : contract.effective roster t ⊆ contract.effective roster s := effective_mono hts
  refine IdSet.subset_antisymm hle (effective_subset_of_isClosed ?_)
  intro id hid node hnode hunlocked
  have heffective : id ∈ contract.effective roster s :=
    effective_isClosed id hid node hnode (isUnlocked_mono hle hunlocked)
  exact effective_isClosed id (hin id heffective) node hnode hunlocked

/-! ## Stability -/

/-- Every selected id is in effect. -/
def IsStable (contract : Contract) (roster : Roster) (selection : Selection) : Prop :=
  contract.effective roster selection = selection.toIdSet

instance (contract : Contract) (roster : Roster) (selection : Selection) :
    Decidable (contract.IsStable roster selection) :=
  inferInstanceAs (Decidable (_ = _))

theorem isStable_iff :
    contract.IsStable roster selection ↔
      ∀ id ∈ selection, id ∈ contract.effective roster selection := by
  constructor
  · intro h id hid
    rw [h]
    exact Selection.mem_toIdSet.2 hid
  · intro h
    refine IdSet.subset_antisymm effective_subset_toIdSet fun id hid => ?_
    exact h id (Selection.mem_toIdSet.1 hid)

/-- A stable selection names nodes only. -/
theorem IsStable.exists_node (h : contract.IsStable roster selection) {id : String}
    (hid : id ∈ selection) : ∃ node, contract.node? id = some node :=
  exists_node_of_mem_effective (isStable_iff.1 h id hid)

theorem isStable_empty : contract.IsStable roster .empty :=
  isStable_iff.2 fun _ hid => absurd hid (List.not_mem_nil)

/-! ## Pruning -/

theorem mem_prune {id : String} :
    id ∈ (contract.prune roster selection).selection ↔
      id ∈ contract.effective roster selection := by
  simp only [prune, Selection.mem_filter, decide_eq_true_eq]
  exact and_iff_right_of_imp fun h => (mem_effective_iff.1 h).1

theorem toIdSet_prune :
    (contract.prune roster selection).selection.toIdSet = contract.effective roster selection := by
  ext id
  rw [Selection.mem_toIdSet, mem_prune]

/-- What is in effect stays in effect when the rest is dropped. -/
theorem effective_prune :
    contract.effective roster (contract.prune roster selection).selection =
      contract.effective roster selection :=
  effective_eq_of_subset (fun _ hid => (mem_effective_iff.1 (mem_prune.1 hid)).1)
    fun _ hid => mem_prune.2 hid

/-- What is in effect stays in effect in any selection that keeps it. -/
theorem effective_subset_of_forall_mem {s t : Selection}
    (h : ∀ id ∈ contract.effective roster s, id ∈ t) :
    contract.effective roster s ⊆ contract.effective roster t := by
  rw [← effective_prune]
  exact effective_mono fun id hid => h id (mem_prune.1 hid)

/-- **Pruning stabilizes.** -/
theorem prune_isStable : contract.IsStable roster (contract.prune roster selection).selection := by
  unfold IsStable
  rw [effective_prune, toIdSet_prune]

/-- There is nothing to prune in a stable selection. -/
theorem IsStable.prune_eq (h : contract.IsStable roster selection) :
    contract.prune roster selection = { selection, demoted := .empty } := by
  have hall := isStable_iff.1 h
  simp only [prune, SelectionUpdate.mk.injEq]
  constructor
  · ext1
    exact List.filter_eq_self.2 fun id hid => decide_eq_true (hall id hid)
  · ext id
    simp only [IdSet.mem_filter, Selection.mem_toIdSet, decide_eq_true_eq, IdSet.not_mem_empty,
      iff_false, not_and, not_not]
    exact hall id

/-! ## Selecting and deselecting -/

/-- What a selected node was like, and what selecting it makes of the selection. -/
theorem select_eq_ok_iff {id : String} {update : SelectionUpdate} :
    contract.select roster selection id = .ok update ↔
      ∃ node, contract.node? id = some node ∧ id ∉ contract.effective roster selection ∧
        contract.isUnlocked roster node (contract.effective roster selection) = true ∧
        update = { contract.prune roster selection with
          selection := (contract.prune roster selection).selection.insert id } := by
  unfold select
  cases hnode : contract.node? id with
  | none => simp
  | some node =>
    simp only [toIdSet_prune, Option.some.injEq, exists_eq_left']
    by_cases hin : id ∈ contract.effective roster selection
    · simp [hin]
    · cases hunlocked : contract.isUnlocked roster node (contract.effective roster selection)
      · simp [hin]
      · simp [hin, eq_comm]

theorem deselect_eq_ok_iff {id : String} {update : SelectionUpdate} :
    contract.deselect roster selection id = .ok update ↔
      id ∈ contract.effective roster selection ∧
        update = contract.prune roster (selection.erase id) := by
  unfold deselect
  by_cases hin : id ∈ contract.effective roster selection
  · obtain ⟨node, hnode⟩ := exists_node_of_mem_effective hin
    simp [hin, hnode, eq_comm]
  · by_cases hnode : contract.node? id = none
    · simp [hin, hnode]
    · simp [hin, hnode]

/-- **Selecting an available node keeps everything in effect.** The new id needs no second look: what
unlocked it is still there. -/
theorem select_isStable {id : String} {update : SelectionUpdate}
    (h : contract.select roster selection id = .ok update) :
    contract.IsStable roster update.selection := by
  obtain ⟨node, hnode, -, hunlocked, rfl⟩ := select_eq_ok_iff.1 h
  have hle : contract.effective roster selection ⊆ contract.effective roster
      ((contract.prune roster selection).selection.insert id) := by
    rw [← effective_prune]
    exact effective_mono fun x hx => Selection.mem_insert.2 (.inl hx)
  refine isStable_iff.2 fun x hx => ?_
  rcases Selection.mem_insert.1 hx with hx | rfl
  · exact hle x (mem_prune.1 hx)
  · exact effective_isClosed x hx node hnode (isUnlocked_mono hle hunlocked)

theorem deselect_isStable {id : String} {update : SelectionUpdate}
    (h : contract.deselect roster selection id = .ok update) :
    contract.IsStable roster update.selection := by
  obtain ⟨-, rfl⟩ := deselect_eq_ok_iff.1 h
  exact prune_isStable

end Contract

end PerkGraph
