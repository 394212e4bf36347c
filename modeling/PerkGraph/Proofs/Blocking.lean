import PerkGraph.Proofs.CleanContracts
import PerkGraph.Proofs.DeadNodes

/-!
# What errors block

An error of a validation is to block what it names: a node is never in effect, an effect is never applied
(`Defect.IsEnforced`). Nothing that recomputes a session looks at a validation, so each kind of error is
enforced only as far as the engine stumbles over the same fault. It does over a contract without a start, over
an effect text or a gate text that cannot be read and over a missing gate text. Two kinds are left
(`Defect.isLoose`): effects on a gate take their turns like any others once the gate is in effect, and an
unknown id in a gate rule is an id that is never hit, which closes the gate for good where the rule asks for all
of its ids or for more of them than name nodes, and counts for nothing otherwise. Main statements:
`Contract.errors_block` for all contracts, `Contract.errors_block_not_all` for one that gets past both kinds.
-/

namespace PerkGraph

namespace Contract

/-! ## What an error is to block -/

/-- The id is in effect in no session. -/
def NeverInEffect (contract : Contract) (id : String) : Prop :=
  ∀ roster selection, id ∉ contract.effective roster selection

/-- The effect in a slot of a node is applied in no session. -/
def NeverApplies (contract : Contract) (id : String) (slot : SlotNumber) : Prop :=
  ∀ roster selection ratios extensions,
    ∀ entry ∈ (contract.poolReport roster selection ratios extensions).trace,
      entry.node = id → entry.slot = slot → ∀ stat before after,
        entry.content ≠ .applied stat before after

end Contract

/-- What the defect names is blocked in every session. -/
def Defect.IsEnforced (contract : Contract) : Defect → Prop
  | .noStart => ∀ id, contract.NeverInEffect id
  | .badEffect node slot _ _ => contract.NeverApplies node slot
  | .effectsOnGate node => ∀ slot, contract.NeverApplies node slot
  | .gateWithoutRule node => contract.NeverInEffect node
  | .badGate node _ _ => contract.NeverInEffect node
  | .unknownGateNode node _ => contract.NeverInEffect node

/-- The kinds of defects that the engine may get past. -/
def Defect.isLoose : Defect → Bool
  | .effectsOnGate _ | .unknownGateNode _ _ => true
  | .noStart | .badEffect _ _ _ _ | .gateWithoutRule _ | .badGate _ _ _ => false

namespace Contract

variable {contract : Contract} {roster : Roster} {selection : Selection} {ratios : PreventionRatios}
  {extensions : Extensions} {id : String} {node : Node} {entry : TraceEntry}

/-! ## Nodes -/

theorem neverInEffect_of_noStart (h : ∀ node ∈ contract.nodes, node.kind ≠ .start) (id : String) :
    contract.NeverInEffect id := by
  intro roster selection hin
  obtain ⟨path, ⟨⟨node, -, hnode, hkind⟩, -, -⟩, -⟩ := exists_isRoute hin
  exact h node (mem_of_node? hnode) hkind

/-- A gate opens by a rule, so it takes a text that is one. -/
theorem neverInEffect_of_gateRule_ne (hnode : contract.node? id = some node) (hkind : node.kind = .gate)
    (h : ∀ rule, node.gateRule ≠ some (.ok rule)) : contract.NeverInEffect id := by
  have hdead : contract.IsDead id :=
    isDead_of_gate hnode hkind fun rule hrule => absurd hrule (h rule)
  exact fun roster selection => (hdead roster selection).1

/-- A requested gate is in effect if its rule holds and an edge leads to it. -/
theorem mem_effective_iff_of_gate {rule : GateRule} (hnode : contract.node? id = some node)
    (hkind : node.kind = .gate) (hrule : node.gateRule = some (.ok rule)) :
    id ∈ contract.effective roster selection ↔
      id ∈ selection ∧ rule.holds roster (contract.effective roster selection) = true ∧
        ∃ source ∈ contract.effective roster selection, contract.HasEdge source id := by
  obtain rfl := id_of_node? hnode
  have hopen (s : IdSet) : isOpen roster node s = rule.holds roster s := by
    rw [isOpen, if_pos hkind, Node.activeGate, if_pos hkind, hrule]
  have hreached (s : IdSet) :
      contract.isReached node s = true ↔ ∃ source ∈ s, contract.HasEdge source node.id := by
    rw [isReached_iff, or_iff_right (hkind ▸ by decide)]
  simp only [mem_effective_iff, hnode, Option.some.injEq, exists_eq_left', isUnlocked,
    Bool.and_eq_true, hopen, hreached]

/-! ### Unknown ids in gate rules -/

/-- The ids that name nodes. -/
def known (contract : Contract) (ids : IdSet) : IdSet :=
  ids.filter fun id => (contract.node? id).isSome

/-- No more listed ids are in effect than name nodes. -/
theorem size_filter_effective_le (contract : Contract) (roster : Roster) (selection : Selection)
    (ids : IdSet) :
    (ids.filter (· ∈ contract.effective roster selection)).size ≤ (contract.known ids).size := by
  refine IdSet.size_filter_mono (fun id hid => ?_) ids
  obtain ⟨node, hnode⟩ := exists_node_of_mem_effective (of_decide_eq_true hid)
  rw [hnode, Option.isSome_some]

/-- A gate that lists an unknown id is open if it asks for a number of ids and that many are in effect. -/
theorem mem_effective_iff_of_unknown {rule : GateRule} {ids : IdSet} {listed : String}
    (hnode : contract.node? id = some node) (hkind : node.kind = .gate)
    (hrule : node.gateRule = some (.ok rule)) (hdemand : rule.demand = .nodes ids)
    (hlisted : listed ∈ ids) (hunknown : contract.node? listed = none) (roster : Roster)
    (selection : Selection) :
    id ∈ contract.effective roster selection ↔
      id ∈ selection ∧ (0 < rule.threshold ∧
        rule.threshold ≤ (ids.filter (· ∈ contract.effective roster selection)).size) ∧
        ∃ source ∈ contract.effective roster selection, contract.HasEdge source id := by
  -- an id that names no node is never in effect, so not all of the listed ids are
  have hmissed : listed ∉ contract.effective roster selection := by
    intro hin
    obtain ⟨other, hother⟩ := exists_node_of_mem_effective hin
    cases hunknown.symm.trans hother
  rw [mem_effective_iff_of_gate hnode hkind hrule, GateRule.holds_nodes_iff hdemand]
  split
  · rename_i hzero
    have hnot : ¬ids ⊆ contract.effective roster selection := fun hall => hmissed (hall listed hlisted)
    simp [hnot, hzero]
  · rename_i hzero
    simp [Nat.pos_of_ne_zero hzero]

/-! ## Effects -/

/-- Only nodes in effect have entries in a trace. -/
theorem mem_effective_of_mem_trace
    (h : entry ∈ (contract.poolReport roster selection ratios extensions).trace) :
    entry.node ∈ contract.effective roster selection := by
  obtain ⟨node, slot, hslot, hrecords⟩ := Situation.exists_records h
  rw [hrecords.node_eq]
  exact hslot.selected

theorem neverApplies_of_neverInEffect (h : contract.NeverInEffect id) (slot : SlotNumber) :
    contract.NeverApplies id slot := by
  intro roster selection ratios extensions entry hentry hid
  exact absurd (hid ▸ mem_effective_of_mem_trace hentry) (h roster selection)

/-- An effect whose text is none is recorded as failed, and not applied. -/
theorem neverApplies_of_effect_eq_error {slot : EffectSlot} {error : EffectError}
    (hmem : node ∈ contract.nodes) (hslot : slot ∈ node.effects) (herror : slot.effect = .error error) :
    contract.NeverApplies node.id slot.slot := by
  intro roster selection ratios extensions entry hentry hid hnumber stat before after hcontent
  obtain ⟨other, otherSlot, hother, hrecords⟩ := Situation.exists_records hentry
  -- the entry is the one of this slot: its id finds the node and its number the slot
  have hnode : other.id = node.id := hrecords.node_eq.symm.trans hid
  obtain rfl : node = other :=
    Option.some.inj ((node?_of_mem hmem).symm.trans (hnode ▸ hother.found))
  have hnumbers : otherSlot.slot = slot.slot := hrecords.slot_eq.symm.trans hnumber
  obtain rfl : slot = otherSlot :=
    Option.some.inj ((Node.find?_effects hslot).symm.trans (hnumbers ▸ Node.find?_effects hother.listed))
  cases hcontent.symm.trans ((hrecords.malformed error).2 herror)

/-! ## The main statements -/

/-- **What errors block.** Every error is enforced that is not of the two loose kinds. A gate that lists an
unknown id is never in effect if its rule asks for all listed ids or for more of them than name nodes; in any
session it is in effect exactly if it is requested, its rule asks for a number of ids, that many of those
listed are in effect, and an edge leads to it from an id in effect. The effects on a gate are blocked where the
gate is; a trace says nothing of them unless the gate is in effect, and then it records each of them as it
records any effect. -/
theorem errors_block (contract : Contract) :
    (∀ defect ∈ contract.validate.errors, defect.isLoose = false → defect.IsEnforced contract) ∧
    (∀ id listed, .unknownGateNode id listed ∈ contract.validate.errors →
      ∃ node rule ids, contract.node? id = some node ∧ node.gateRule = some (.ok rule) ∧
        rule.demand = .nodes ids ∧ listed ∈ ids ∧
        (rule.threshold = 0 ∨ (contract.known ids).size < rule.threshold → contract.NeverInEffect id) ∧
        ∀ roster selection,
          let effective := contract.effective roster selection
          id ∈ effective ↔ id ∈ selection ∧
            (0 < rule.threshold ∧ rule.threshold ≤ (ids.filter (· ∈ effective)).size) ∧
            ∃ source ∈ effective, contract.HasEdge source id) ∧
    ∀ id, .effectsOnGate id ∈ contract.validate.errors →
      (contract.NeverInEffect id → (Defect.effectsOnGate id).IsEnforced contract) ∧
      ∃ node, contract.node? id = some node ∧ node.kind = .gate ∧
        ∀ roster selection ratios extensions,
          let selected := contract.effective roster selection
          let trace := (contract.poolReport roster selection ratios extensions).trace
          (∀ entry ∈ trace, entry.node = id → id ∈ selected) ∧
          (id ∈ selected → ∀ slot ∈ node.effects, ∃ entry ∈ trace,
            Situation.Records { contract, roster, selected, extensions } node slot entry) := by
  refine ⟨fun defect hdefect hfirm => ?_, fun id listed hdefect => ?_, fun id hdefect => ?_⟩
  · cases mem_errors_iff.1 hdefect with
    | noStart hnone => exact neverInEffect_of_noStart hnone
    | badEffect hmem hslot herror => exact neverApplies_of_effect_eq_error hmem hslot herror
    | gateWithoutRule hmem hkind hgate =>
      refine neverInEffect_of_gateRule_ne (node?_of_mem hmem) hkind fun rule hrule => ?_
      cases (Node.gateRule_eq_none_iff.2 hgate).symm.trans hrule
    | badGate hmem hkind hgate hread =>
      refine neverInEffect_of_gateRule_ne (node?_of_mem hmem) hkind fun rule hrule => ?_
      cases (Node.gateRule_eq_some_iff.2 ⟨_, hgate, hread⟩).symm.trans hrule
    | effectsOnGate => cases hfirm
    | unknownGateNode => cases hfirm
  · cases mem_errors_iff.1 hdefect with
    | @unknownGateNode node rule ids _ hmem hkind hrule hdemand hlisted hunknown =>
      have hnode := node?_of_mem hmem
      have hopen := mem_effective_iff_of_unknown hnode hkind hrule hdemand hlisted hunknown
      refine ⟨node, rule, ids, hnode, hrule, hdemand, hlisted, fun hshort roster selection hin => ?_,
        hopen⟩
      obtain ⟨-, ⟨hpositive, hhits⟩, -⟩ := (hopen roster selection).1 hin
      have hknown := contract.size_filter_effective_le roster selection ids
      omega
  · cases mem_errors_iff.1 hdefect with
    | @effectsOnGate node hmem hkind hcarries =>
      have hnode := node?_of_mem hmem
      refine ⟨fun hnever slot => neverApplies_of_neverInEffect hnever slot, node, hnode, hkind,
        fun roster selection ratios extensions => ⟨?_, ?_⟩⟩
      · intro entry hentry hid
        exact hid ▸ mem_effective_of_mem_trace hentry
      · intro hin slot hslot
        exact Situation.HasSlot.exists_entry ⟨hin, hnode, hslot⟩

/-- **Not every error is enforced.** A gate that carries an effect and lists an unknown id is reported for both;
selected after the start it is in effect, and its effect is applied. -/
theorem errors_block_not_all :
    let contract : Contract :=
      { name := "c"
        nodes :=
          [.ofRecord
              { id := "gate", kind := .gate, effect1 := some "None;+;5;Money"
                gate := some "Node:start,ghost;1" },
            .ofRecord { id := "start", kind := .start, connections := ["gate"] }]
        ascending := by decide
        wellFormed := by decide
        closed := by decide }
    let selection : Selection := { ids := ["start", "gate"], nodup := by decide }
    let report := contract.poolReport .empty selection {} .unresolved
    contract.validate.errors = [.effectsOnGate "gate", .unknownGateNode "gate" "ghost"] ∧
    "gate" ∈ contract.effective .empty selection ∧
    report.trace =
      [{ node := "gate", slot := .first, raw := "None;+;5;Money"
         content := .applied .money .zero { val := 5 } }] ∧
    ∀ defect ∈ contract.validate.errors, ¬defect.IsEnforced contract := by
  intro contract selection report
  have herrors : contract.validate.errors = [.effectsOnGate "gate", .unknownGateNode "gate" "ghost"] := by
    decide +kernel
  have hin : "gate" ∈ contract.effective .empty selection := by decide +kernel
  have htrace : report.trace =
      [{ node := "gate", slot := .first, raw := "None;+;5;Money"
         content := .applied .money .zero { val := 5 } }] := by
    decide +kernel
  refine ⟨herrors, hin, htrace, fun defect hdefect henforced => ?_⟩
  rw [herrors, List.mem_cons, List.mem_singleton] at hdefect
  rcases hdefect with rfl | rfl
  · exact henforced .first .empty selection {} .unresolved _ (htrace ▸ List.mem_singleton_self _) rfl rfl
      _ _ _ rfl
  · exact henforced .empty selection hin

end Contract

end PerkGraph
