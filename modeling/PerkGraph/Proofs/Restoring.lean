import PerkGraph.Proofs.Demotion
import PerkGraph.Proofs.PlayOrder
import PerkGraph.Proofs.WhatIf

/-!
# Taking a deselection back

A deselection is clean: the id taken out can be chosen again at once, and no node that it demoted can
(`available_of_deselect`, `unavailable_of_mem_demoted`). An id in effect was unlocked by ids that came into effect
before it, so it never hangs on itself, neither through a cycle nor through a gate that lists what lies behind
it; and had a demoted node still been unlocked, it would not have been demoted. A deselection of a stable
selection can also be undone (`exists_restoring_order`): choosing the id and the demoted ids again, each once and in a
suitable order, is never refused and leads back to the same ids. Main statement:
`Contract.deselect_reversible`.
-/

namespace PerkGraph

/-- Selections of the same ids list them in some order each. -/
theorem Selection.ids_perm_of_toIdSet_eq {s t : Selection} (h : s.toIdSet = t.toIdSet) : s.ids.Perm t.ids := by
  rw [List.perm_ext_iff_of_nodup s.nodup t.nodup]
  intro x
  rw [← mem_def, ← mem_def, ← mem_toIdSet, h, mem_toIdSet]

namespace Contract

variable {contract : Contract} {roster : Roster} {selection : Selection} {id : String}
  {update : SelectionUpdate}

/-! ## States after a transition -/

/-- What pruning demotes is locked afterwards: otherwise it would be in effect. -/
theorem unavailable_of_mem_demoted (hdemoted : id ∈ (contract.prune roster selection).demoted)
    {node : Node} (hnode : contract.node? id = some node) :
    (id, .unavailable) ∈ contract.availability roster (contract.prune roster selection).selection := by
  obtain ⟨hid, hout⟩ := mem_demoted_prune.1 hdemoted
  rw [mem_availability]
  refine ⟨node, hnode, ?_⟩
  rw [effective_prune, stateOf_eq_iff, id_of_node? hnode]
  refine ⟨hout, Bool.eq_false_iff.2 fun hunlocked => ?_⟩
  exact hout (effective_isClosed id hid node hnode hunlocked)

/-- What is deselected is still unlocked: it never was among the ids that unlocked it. -/
theorem available_of_deselect (h : contract.deselect roster selection id = .ok update) :
    (id, .available) ∈ contract.availability roster update.selection := by
  obtain ⟨hin, rfl⟩ := deselect_eq_ok_iff.1 h
  obtain ⟨node, hnode⟩ := exists_node_of_mem_effective hin
  have hout : id ∉ contract.effective roster (selection.erase id) := fun hleft =>
    (Selection.mem_erase.1 (mem_effective_iff.1 hleft).1).2 rfl
  -- put back, the id is in effect as it was before
  have hback : contract.effective roster ((selection.erase id).insert id) =
      contract.effective roster selection := by
    refine effective_congr fun x => ?_
    rw [Selection.mem_insert, Selection.mem_erase]
    by_cases hx : x = id
    · subst hx
      exact ⟨fun _ => (mem_effective_iff.1 hin).1, fun _ => .inr rfl⟩
    · simp [hx]
  rw [mem_availability]
  refine ⟨node, hnode, ?_⟩
  rw [effective_prune, stateOf_effective_iff hnode]
  exact ⟨hout, hback ▸ hin⟩

/-! ## The way back -/

/-- The id and what its deselection demoted can be selected again one after another. -/
theorem exists_restoring_order (hstable : contract.IsStable roster selection)
    (h : contract.deselect roster selection id = .ok update) :
    ∃ order restored, order.Perm (id :: update.demoted.toList) ∧
      contract.selectAll roster update.selection order = .ok restored ∧
      restored.toIdSet = selection.toIdSet := by
  have hid : id ∈ selection := (mem_effective_iff.1 (deselect_eq_ok_iff.1 h).1).1
  have hleft : contract.IsStable roster update.selection := deselect_isStable h
  -- the ids left, the id and the demoted ids are the ids of the selection
  have hids : (update.selection.ids ++ id :: update.demoted.toList).Perm selection.ids := by
    have haccounted := (deselect_accounts h).perm
    have herase : (id :: (selection.erase id).ids).Perm selection.ids := by
      rw [Selection.ids_erase]
      exact (List.perm_cons_erase hid).symm
    rw [List.append_nil] at haccounted
    exact List.perm_middle.trans ((haccounted.cons id).trans herase)
  have hrequest (x : String) :
      x ∈ update.selection.insertAll selection.toIdSet.toList ↔ x ∈ selection := by
    rw [Selection.mem_insertAll, ← IdSet.mem_def, Selection.mem_toIdSet]
    refine or_iff_right_of_imp fun hx => ?_
    exact hids.subset (List.mem_append_left _ hx)
  obtain ⟨order, restored, -, hrestored, hset⟩ := exists_selectAll hleft selection.toIdSet
  rw [effective_congr hrequest, hstable] at hset
  refine ⟨order, restored, ?_, hrestored, hset⟩
  -- every accepted id went to the end, so the order is what was missing
  have hperm : (update.selection.ids ++ order).Perm selection.ids :=
    (hleft.ids_selectAll hrestored).2 ▸ Selection.ids_perm_of_toIdSet_eq hset
  exact (List.perm_append_left_iff _).1 (hperm.trans hids.symm)

/-! ## The main statement -/

/-- **Deselection is clean and reversible.** Afterwards the id is available and every demoted node is unavailable,
as is every node that pruning demotes. If the selection was stable, the id and the demoted ids can be selected
again, each once in some order and none refused, until exactly the ids of the selection are selected. -/
theorem deselect_reversible (contract : Contract) (roster : Roster) (selection : Selection) :
    (∀ id ∈ (contract.prune roster selection).demoted, ∀ node, contract.node? id = some node →
      (id, .unavailable) ∈
        contract.availability roster (contract.prune roster selection).selection) ∧
    ∀ id update, contract.deselect roster selection id = .ok update →
      (id, .available) ∈ contract.availability roster update.selection ∧
      (∀ x ∈ update.demoted, ∀ node, contract.node? x = some node →
        (x, .unavailable) ∈ contract.availability roster update.selection) ∧
      (contract.IsStable roster selection → ∃ order restored,
        order.Perm (id :: update.demoted.toList) ∧
        contract.selectAll roster update.selection order = .ok restored ∧
        restored.toIdSet = selection.toIdSet) := by
  refine ⟨fun id hid node hnode => unavailable_of_mem_demoted hid hnode, fun id update h => ?_⟩
  refine ⟨available_of_deselect h, fun x hx node hnode => ?_,
    fun hstable => exists_restoring_order hstable h⟩
  obtain ⟨-, rfl⟩ := deselect_eq_ok_iff.1 h
  exact unavailable_of_mem_demoted hx hnode

/-- Two nodes that lead to each other, and a gate that asks for both: without `a` the other node and the gate are
locked, and after it they come back in the order of the cycle. -/
theorem deselect_reversible_cycle :
    let contract : Contract :=
      { name := "cycle"
        nodes :=
          [.ofRecord { id := "a", connections := ["b"] },
            .ofRecord { id := "b", connections := ["a", "gate"] },
            .ofRecord { id := "gate", kind := .gate, gate := some "Node:a,b;0" },
            .ofRecord { id := "start", kind := .start, connections := ["a"] }]
        ascending := by decide
        wellFormed := by decide
        closed := by decide }
    let selection : Selection := { ids := ["gate", "b", "start", "a"], nodup := by decide }
    let update : SelectionUpdate :=
      { selection := { ids := ["start"], nodup := by decide }
        demoted := { toList := ["b", "gate"], ascending := by decide } }
    contract.deselect .empty selection "a" = .ok update ∧ contract.IsStable .empty selection ∧
      ∃ order restored, order.Perm ["a", "b", "gate"] ∧
        contract.selectAll .empty update.selection order = .ok restored ∧
        restored.toIdSet = selection.toIdSet := by
  intro contract selection update
  have hdeselect : contract.deselect .empty selection "a" = .ok update :=
    deselect_eq_ok_iff.2 ⟨by decide +kernel, by decide +kernel⟩
  have hstable : contract.IsStable .empty selection := by decide +kernel
  obtain ⟨-, -, hrestore⟩ := (contract.deselect_reversible .empty selection).2 "a" update hdeselect
  exact ⟨hdeselect, hstable, hrestore hstable⟩

end Contract

end PerkGraph
