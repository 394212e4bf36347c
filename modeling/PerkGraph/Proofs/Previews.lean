import PerkGraph.Preview
import PerkGraph.Proofs.TraceRecord
import PerkGraph.Proofs.WhatIf

/-!
# What a preview shows

A preview is put together from three computations, none of which knows of the others: the ids in effect, the state
of every node, and the pools with their trace. They tell the same story. The ids in effect are those whose state says
so (`toList_effective_eq`), and the trace names those of them that carry effects (`ofList_nodes_trace`). All three
read nothing of the request but the ids in effect (`preview_eq_of_effective_eq`), so it does not show whether the
request was pruned (`preview_agrees`).
-/

namespace PerkGraph

namespace Contract

variable {contract : Contract} {roster : Roster} {selection : Selection}

/-! ## The ids in effect, three times -/

theorem selected_mem_availability_iff {id : String} :
    (id, .selected) ∈ contract.availability roster selection ↔
      id ∈ contract.effective roster selection := by
  rw [mem_availability]
  constructor
  · rintro ⟨node, hnode, hstate⟩
    exact (stateOf_effective_iff hnode .selected).1 hstate
  · intro hin
    obtain ⟨node, hnode⟩ := exists_node_of_mem_effective hin
    exact ⟨node, hnode, (stateOf_effective_iff hnode .selected).2 hin⟩

/-- The ids in effect are those whose state says so, in the order of the states. -/
theorem toList_effective_eq :
    (contract.effective roster selection).toList =
      ((contract.availability roster selection).filter fun entry => entry.2 = .selected).map
        Prod.fst := by
  have hascending : IsAscending id
      (((contract.availability roster selection).filter fun entry => entry.2 = .selected).map
        Prod.fst) :=
    List.pairwise_map.2 (isAscending_availability.filter _)
  refine (contract.effective roster selection).ascending.ext_mem hascending fun id => ?_
  rw [← IdSet.mem_def, ← selected_mem_availability_iff]
  simp

/-- The id names a node that carries effects. -/
def hasEffects (contract : Contract) (id : String) : Bool :=
  (contract.node? id).any fun node => !node.effects.isEmpty

theorem hasEffects_iff {id : String} :
    contract.hasEffects id = true ↔ ∃ node, contract.node? id = some node ∧ node.effects ≠ [] := by
  simp only [hasEffects, Option.any_eq_true, Bool.not_eq_true', List.isEmpty_eq_false_iff, ne_eq]

/-- The trace names the ids in effect that carry effects. -/
theorem ofList_nodes_trace (ratios : PreventionRatios) (extensions : Extensions) :
    IdSet.ofList ((contract.poolReport roster selection ratios extensions).trace.map
        SlotEntry.node) =
      (contract.effective roster selection).filter contract.hasEffects := by
  let situation : Situation :=
    { contract, roster, selected := contract.effective roster selection, extensions }
  ext id
  rw [IdSet.mem_ofList, IdSet.mem_filter, hasEffects_iff, List.mem_map]
  constructor
  · rintro ⟨entry, hentry, rfl⟩
    obtain ⟨node, slot, hslot, hrecords⟩ := Situation.exists_records hentry
    rw [hrecords.node_eq]
    exact ⟨hslot.selected, node, hslot.found, List.ne_nil_of_mem hslot.listed⟩
  · rintro ⟨hin, node, hnode, hne⟩
    obtain rfl := id_of_node? hnode
    obtain ⟨slot, hlisted⟩ := List.exists_mem_of_ne_nil _ hne
    have hslot : situation.HasSlot node slot := ⟨hin, hnode, hlisted⟩
    obtain ⟨entry, hentry, hrecords⟩ := hslot.exists_entry
    exact ⟨entry, hentry, hrecords.node_eq⟩

/-! ## What a preview reads -/

/-- A preview reads nothing of a request but the ids in effect. -/
theorem preview_eq_of_effective_eq {requests : Selection}
    (h : contract.effective roster requests = contract.effective roster selection) (config : Config) :
    contract.preview { roster, selection := requests } config =
      contract.preview { roster, selection } config := by
  simp only [preview, availability, poolReport, h]

/-! ## The main statement -/

/-- **The parts of a preview agree**, whatever the session holds. The ids in effect are ascending, and they are the
ids whose state says so; the distinct nodes of the trace are those of them that carry effects; and the final pools and
the breakdown are what prevention makes of the totals. Pruning the selection of the session does not show, and pruning
it once more does nothing. -/
theorem preview_agrees (contract : Contract) (session : Session) (config : Config) :
    let preview := contract.preview session config
    let pruned := (contract.prune session.roster session.selection).selection
    IsAscending id preview.selected.toList ∧
    preview.selected.toList =
      (preview.availability.filter fun entry => entry.2 = .selected).map Prod.fst ∧
    IdSet.ofList (preview.report.trace.map SlotEntry.node) =
      preview.selected.filter contract.hasEffects ∧
    (preview.report.pools, preview.report.prevention) =
      preview.report.raw.prevent config.prevention ∧
    contract.preview { session with selection := pruned } config = preview ∧
    contract.prune session.roster pruned = { selection := pruned, demoted := .empty } := by
  intro preview pruned
  exact ⟨preview.selected.ascending, toList_effective_eq, ofList_nodes_trace _ _, rfl,
    preview_eq_of_effective_eq effective_prune config, prune_isStable.prune_eq⟩

end Contract

end PerkGraph
