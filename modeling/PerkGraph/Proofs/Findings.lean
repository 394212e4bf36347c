import PerkGraph.Validation

/-!
# What validation finds

The findings of a validation, said without the order in which they are looked for: `HasDefect` and
`HasCaution` have one rule for each kind of finding, with all that it says about the contract. Validation
reports exactly these (`mem_errors_iff`, `mem_warnings_iff`), so statements about findings are proved by cases
on the rules and the checks are not opened again.
-/

namespace PerkGraph

/-- The defects of a contract, one rule for each kind. -/
inductive Contract.HasDefect (contract : Contract) : Defect → Prop where
  | noStart (none : ∀ node ∈ contract.nodes, node.kind ≠ .start) : HasDefect contract .noStart
  | badEffect {node : Node} {slot : EffectSlot} {error : EffectError} (mem : node ∈ contract.nodes)
      (listed : slot ∈ node.effects) (unread : slot.effect = .error error) :
      HasDefect contract (.badEffect node.id slot.slot slot.raw.text error)
  | effectsOnGate {node : Node} (mem : node ∈ contract.nodes) (gate : node.kind = .gate)
      (carries : node.effects ≠ []) : HasDefect contract (.effectsOnGate node.id)
  | gateWithoutRule {node : Node} (mem : node ∈ contract.nodes) (gate : node.kind = .gate)
      (missing : node.gate = none) : HasDefect contract (.gateWithoutRule node.id)
  | badGate {node : Node} {raw : RuleText} {error : GateError} (mem : node ∈ contract.nodes)
      (gate : node.kind = .gate) (given : node.gate = some raw)
      (unread : GateRule.read raw.text = .error error) :
      HasDefect contract (.badGate node.id raw.text error)
  | unknownGateNode {node : Node} {rule : GateRule} {ids : IdSet} {id : String}
      (mem : node ∈ contract.nodes) (gate : node.kind = .gate)
      (given : node.gateRule = some (.ok rule)) (demand : rule.demand = .nodes ids)
      (listed : id ∈ ids) (unknown : contract.node? id = none) :
      HasDefect contract (.unknownGateNode node.id id)

/-- The cautions about a contract, one rule for each kind. -/
inductive Contract.HasCaution (contract : Contract) : Caution → Prop where
  | gateIgnored {node : Node} {raw : RuleText} (mem : node ∈ contract.nodes)
      (notGate : node.kind ≠ .gate) (given : node.gate = some raw) :
      HasCaution contract (.gateIgnored node.id raw.text node.kind)
  | edgesFromEnd {node : Node} (mem : node ∈ contract.nodes) (finish : node.kind = .finish)
      (edges : node.connections ≠ []) : HasCaution contract (.edgesFromEnd node.id)
  | thresholdTooHigh {node : Node} {rule : GateRule} {ids : IdSet} (mem : node ∈ contract.nodes)
      (gate : node.kind = .gate) (given : node.gateRule = some (.ok rule))
      (demand : rule.demand = .nodes ids) (high : ids.size < rule.threshold) :
      HasCaution contract (.thresholdTooHigh node.id rule.threshold ids.size)
  | unreachable {node : Node} (mem : node ∈ contract.nodes)
      (unreached : node.id ∉ contract.reachable) : HasCaution contract (.unreachable node.id)

namespace Node

variable {node : Node}

theorem gateRule_eq_some_iff {result : Except GateError GateRule} :
    node.gateRule = some result ↔
      ∃ raw, node.gate = some raw ∧ GateRule.read raw.text = result := by
  simp only [gateRule, Option.map_eq_some_iff]

theorem gateRule_eq_none_iff : node.gateRule = none ↔ node.gate = none := by
  simp only [gateRule, Option.map_eq_none_iff]

end Node

namespace Contract

variable {contract : Contract}

theorem starts_eq_nil_iff : contract.starts = [] ↔ ∀ node ∈ contract.nodes, node.kind ≠ .start := by
  simp [starts]

/-! ## Defects -/

section Defects

variable {defect : Defect} {node : Node}

theorem hasDefect_of_mem_effectDefects (hmem : node ∈ contract.nodes)
    (h : defect ∈ effectDefects node) : contract.HasDefect defect := by
  obtain ⟨slot, hslot, hfound⟩ := List.mem_filterMap.1 h
  split at hfound
  · cases hfound
  · rename_i error herror
    cases hfound
    exact .badEffect hmem hslot herror

theorem hasDefect_of_mem_gateDefects (hmem : node ∈ contract.nodes) (hkind : node.kind = .gate)
    (h : defect ∈ contract.gateDefects node) : contract.HasDefect defect := by
  rw [gateDefects, List.mem_append] at h
  rcases h with h | h
  · split at h
    · cases h
    · rename_i heffects
      obtain rfl := List.mem_singleton.1 h
      exact .effectsOnGate hmem hkind heffects
  · split at h
    · rename_i hgate
      obtain rfl := List.mem_singleton.1 h
      exact .gateWithoutRule hmem hkind hgate
    · rename_i raw hgate
      split at h
      · rename_i error hread
        obtain rfl := List.mem_singleton.1 h
        exact .badGate hmem hkind hgate hread
      · rename_i rule hread
        unfold ruleDefects at h
        split at h
        · rename_i ids hdemand
          simp only [List.mem_map, List.mem_filter, Option.isNone_iff_eq_none] at h
          obtain ⟨id, ⟨hlisted, hunknown⟩, rfl⟩ := h
          exact .unknownGateNode hmem hkind (Node.gateRule_eq_some_iff.2 ⟨raw, hgate, hread⟩)
            hdemand hlisted hunknown
        · cases h

/-- **Validation reports the defects of the contract**, all of them and no others. -/
theorem mem_errors_iff : defect ∈ contract.validate.errors ↔ contract.HasDefect defect := by
  simp only [validate, List.mem_append, List.mem_flatMap, nodeDefects]
  constructor
  · rintro (h | ⟨node, hmem, h | h⟩)
    · split at h
      · rename_i hstarts
        obtain rfl := List.mem_singleton.1 h
        exact .noStart (starts_eq_nil_iff.1 hstarts)
      · cases h
    · exact hasDefect_of_mem_effectDefects hmem h
    · split at h
      · rename_i hkind
        exact hasDefect_of_mem_gateDefects hmem hkind h
      · cases h
  · intro h
    cases h with
    | noStart hnone => simp [starts_eq_nil_iff.2 hnone]
    | @badEffect node slot error hmem hslot herror =>
      refine .inr ⟨node, hmem, .inl (List.mem_filterMap.2 ⟨slot, hslot, ?_⟩)⟩
      rw [herror]
    | @effectsOnGate node hmem hkind heffects =>
      refine .inr ⟨node, hmem, .inr ?_⟩
      simp [hkind, gateDefects, heffects]
    | @gateWithoutRule node hmem hkind hgate =>
      refine .inr ⟨node, hmem, .inr ?_⟩
      simp [hkind, gateDefects, hgate]
    | @badGate node raw error hmem hkind hgate hread =>
      refine .inr ⟨node, hmem, .inr ?_⟩
      simp [hkind, gateDefects, hgate, hread]
    | @unknownGateNode node rule ids id hmem hkind hrule hdemand hlisted hunknown =>
      obtain ⟨raw, hgate, hread⟩ := Node.gateRule_eq_some_iff.1 hrule
      refine .inr ⟨node, hmem, .inr ?_⟩
      simp [hkind, gateDefects, hgate, hread, ruleDefects, hdemand, hunknown, ← IdSet.mem_def,
        hlisted]

end Defects

/-! ## Cautions -/

section Cautions

variable {caution : Caution} {node : Node}

theorem hasCaution_of_mem_kindCautions (hmem : node ∈ contract.nodes)
    (h : caution ∈ kindCautions node) : contract.HasCaution caution := by
  unfold kindCautions at h
  split at h
  · rename_i hkind
    split at h
    · rename_i rule hrule
      unfold ruleCautions at h
      split at h
      · rename_i ids hdemand
        split at h
        · rename_i hhigh
          obtain rfl := List.mem_singleton.1 h
          exact .thresholdTooHigh hmem hkind hrule hdemand hhigh
        · cases h
      · cases h
    · cases h
  · rename_i hkind
    rcases List.mem_append.1 h with h | h
    · obtain ⟨raw, hgate, rfl⟩ := Option.map_eq_some_iff.1 (Option.mem_toList.1 h)
      exact .gateIgnored hmem hkind hgate
    · split at h
      · rename_i hfinish
        obtain rfl := List.mem_singleton.1 h
        exact .edgesFromEnd hmem hfinish.1 hfinish.2
      · cases h

/-- **Validation reports the cautions about the contract**, all of them and no others. -/
theorem mem_warnings_iff : caution ∈ contract.validate.warnings ↔ contract.HasCaution caution := by
  simp only [validate, List.mem_flatMap, nodeCautions, List.mem_append]
  constructor
  · rintro ⟨node, hmem, h | h⟩
    · exact hasCaution_of_mem_kindCautions hmem h
    · split at h
      · cases h
      · rename_i hunreached
        obtain rfl := List.mem_singleton.1 h
        exact .unreachable hmem hunreached
  · intro h
    cases h with
    | @gateIgnored node raw hmem hkind hgate =>
      exact ⟨node, hmem, .inl (by simp [kindCautions, hkind, hgate])⟩
    | @edgesFromEnd node hmem hkind hedges =>
      exact ⟨node, hmem, .inl (by simp [kindCautions, hkind, hedges])⟩
    | @thresholdTooHigh node rule ids hmem hkind hrule hdemand hhigh =>
      exact ⟨node, hmem, .inl (by simp [kindCautions, hkind, hrule, ruleCautions, hdemand, hhigh])⟩
    | @unreachable node hmem hunreached =>
      exact ⟨node, hmem, .inr (by simp [hunreached])⟩

end Cautions

end Contract

end PerkGraph
