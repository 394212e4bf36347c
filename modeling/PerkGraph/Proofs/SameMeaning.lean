import PerkGraph.Proofs.Draft
import PerkGraph.Proofs.PoolInputs
import PerkGraph.Validation

/-!
# Contracts that mean the same

Two contracts mean the same if they differ in the wording of rule texts only: where a text denotes a rule,
the other one may spell the same rule otherwise (`Contract.MeansLike`). Nothing but the wording of reports
tells them apart. They open alike (`MeansLike.opensLike`), so selecting goes the same way; their dockets match
entry by entry and the turns look at contents only, so the pools agree (`MeansLike.report_matches`);
validation finds the same errors, since a text that denotes nothing stands in both, and as many warnings.
-/

namespace PerkGraph

/-! ## Rule texts, slots and nodes -/

/-- Two rule texts are the same, or they denote the same by a reader. -/
inductive RuleText.MeansLike {ε α : Type} (read : String → Except ε α) : RuleText → RuleText → Prop
  | same (rule : RuleText) : MeansLike read rule rule
  | reworded {rule twin : RuleText} {meaning : α} (h : read rule.text = .ok meaning)
      (htwin : read twin.text = .ok meaning) : MeansLike read rule twin

theorem RuleText.MeansLike.read_eq {ε α : Type} {read : String → Except ε α} {rule twin : RuleText}
    (h : MeansLike read rule twin) : read rule.text = read twin.text := by
  cases h with
  | same => rfl
  | reworded h htwin => rw [h, htwin]

/-- Two slots have one number and one meaning. -/
structure EffectSlot.MeansLike (slot twin : EffectSlot) : Prop where
  slot_eq : slot.slot = twin.slot
  raw : RuleText.MeansLike Effect.read slot.raw twin.raw

theorem EffectSlot.MeansLike.effect_eq {slot twin : EffectSlot} (h : slot.MeansLike twin) :
    slot.effect = twin.effect :=
  h.raw.read_eq

namespace Node

/-- Two nodes differ in the wording of their rule texts only. -/
structure MeansLike (node twin : Node) : Prop where
  id_eq : node.id = twin.id
  kind_eq : node.kind = twin.kind
  color_eq : node.color = twin.color
  effect1 : Option.Rel (RuleText.MeansLike Effect.read) node.effect1 twin.effect1
  effect2 : Option.Rel (RuleText.MeansLike Effect.read) node.effect2 twin.effect2
  gate : Option.Rel (RuleText.MeansLike GateRule.read) node.gate twin.gate
  connections_eq : node.connections = twin.connections

namespace MeansLike

variable {node twin : Node}

theorem gateRule_eq (h : node.MeansLike twin) : node.gateRule = twin.gateRule := by
  have hgate := h.gate
  unfold gateRule
  generalize node.gate = rule, twin.gate = other at hgate ⊢
  cases hgate with
  | none => rfl
  | some hrule => exact congrArg some hrule.read_eq

theorem opensLike (h : node.MeansLike twin) : node.OpensLike twin where
  id_eq := h.id_eq
  kind_eq := h.kind_eq
  opening_eq := by rw [opening?, opening?, activeGate, activeGate, h.kind_eq, h.gateRule_eq]
  mem_connections_iff id := by rw [h.connections_eq]

private theorem forall₂_slot (slot : SlotNumber) {rule other : Option RuleText}
    (h : Option.Rel (RuleText.MeansLike Effect.read) rule other) :
    List.Forall₂ EffectSlot.MeansLike (rule.map fun raw => { slot, raw }).toList
      (other.map fun raw => { slot, raw }).toList := by
  cases h with
  | none => exact .nil
  | some hrule => exact .cons ⟨rfl, hrule⟩ .nil

theorem forall₂_effects (h : node.MeansLike twin) :
    List.Forall₂ EffectSlot.MeansLike node.effects twin.effects :=
  List.rel_append (forall₂_slot .first h.effect1) (forall₂_slot .second h.effect2)

end MeansLike

end Node

/-! ## Matching dockets -/

/-- Two entries differ in the raw text only. -/
structure SlotEntry.Matches {α : Type} (entry twin : SlotEntry α) : Prop where
  node_eq : entry.node = twin.node
  slot_eq : entry.slot = twin.slot
  content_eq : entry.content = twin.content

theorem Situation.LooksLike.judged_matches {situation twin : Situation}
    (h : situation.LooksLike twin) {node other : Node} (hid : node.id = other.id)
    {slot twinSlot : EffectSlot} (hslot : slot.MeansLike twinSlot) :
    (situation.judged node slot).Matches (twin.judged other twinSlot) where
  node_eq := hid
  slot_eq := hslot.slot_eq
  content_eq := by
    rw [Situation.content_judged, Situation.content_judged, h.judge_eq hid hslot.effect_eq]

theorem takeTurns_matches {α β : Type} (turn : Pools → α → Pools × β) (pools : Pools)
    {entries twins : List (SlotEntry α)} (h : List.Forall₂ SlotEntry.Matches entries twins) :
    (takeTurns turn pools entries).1 = (takeTurns turn pools twins).1 ∧
      List.Forall₂ SlotEntry.Matches (takeTurns turn pools entries).2
        (takeTurns turn pools twins).2 := by
  induction h generalizing pools with
  | nil => exact ⟨rfl, .nil⟩
  | cons hentry _ ih =>
    rw [takeTurns_cons, takeTurns_cons, hentry.content_eq]
    obtain ⟨hpools, hrest⟩ := ih (turn pools _).1
    exact ⟨hpools, .cons ⟨hentry.node_eq, hentry.slot_eq, rfl⟩ hrest⟩

theorem settleDocket_matches {docket twins : List (SlotEntry Verdict)}
    (h : List.Forall₂ SlotEntry.Matches docket twins) :
    (settleDocket docket).1 = (settleDocket twins).1 ∧
      List.Forall₂ SlotEntry.Matches (settleDocket docket).2 (settleDocket twins).2 := by
  obtain ⟨hsums, hentries⟩ := takeTurns_matches Pools.additiveTurn .zero h
  have hlast := takeTurns_matches Pools.lastTurn (takeTurns Pools.additiveTurn .zero docket).1 hentries
  unfold settleDocket
  simp only
  rw [← hsums]
  exact hlast

/-- Two reports differ in the raw texts of their traces only. -/
structure PoolReport.Matches (report twin : PoolReport) : Prop where
  raw_eq : report.raw = twin.raw
  pools_eq : report.pools = twin.pools
  prevention_eq : report.prevention = twin.prevention
  trace : List.Forall₂ SlotEntry.Matches report.trace twin.trace

theorem Situation.report_matches {situation twin : Situation} (ratios : PreventionRatios)
    (h : List.Forall₂ SlotEntry.Matches situation.docket twin.docket) :
    (situation.report ratios).Matches (twin.report ratios) := by
  obtain ⟨hraw, htrace⟩ := settleDocket_matches h
  have hprevent := congrArg (Pools.prevent · ratios) hraw
  exact ⟨hraw, congrArg Prod.fst hprevent, congrArg Prod.snd hprevent, htrace⟩

/-! ## Contracts -/

namespace Contract

/-- Two contracts differ in the wording of rule texts only. -/
def MeansLike (contract other : Contract) : Prop :=
  List.Forall₂ Node.MeansLike contract.nodes other.nodes

namespace MeansLike

variable {contract other : Contract}

theorem opensLike (h : contract.MeansLike other) : contract.OpensLike other :=
  List.Forall₂.imp (fun _ _ hnode => hnode.opensLike) h

theorem rel_node? (h : contract.MeansLike other) (id : String) :
    Option.Rel Node.MeansLike (contract.node? id) (other.node? id) :=
  rel_find?_id (fun _ _ hlike => hlike.id_eq) h id

/-! ### Pools -/

theorem looksLike (h : contract.MeansLike other) (roster : Roster) (selected : IdSet)
    (extensions : Extensions) :
    Situation.LooksLike { contract, roster, selected, extensions }
      { contract := other, roster, selected, extensions } where
  roster_eq := rfl
  selected_eq := rfl
  extensions_eq := rfl
  color_eq id _ := by
    have hrel := h.rel_node? id
    dsimp only
    generalize contract.node? id = node, other.node? id = twin at hrel ⊢
    cases hrel with
    | none => rfl
    | some hnode => exact congrArg some hnode.color_eq

theorem docket_matches (h : contract.MeansLike other) (roster : Roster) (selected : IdSet)
    (extensions : Extensions) :
    List.Forall₂ SlotEntry.Matches
      (Situation.docket { contract, roster, selected, extensions })
      (Situation.docket { contract := other, roster, selected, extensions }) := by
  rw [Situation.docket_eq_flatMap, Situation.docket_eq_flatMap]
  refine List.rel_flatMap (List.forall₂_same.2 fun _ _ => rfl) ?_
  rintro id _ rfl
  have hrel := h.rel_node? id
  unfold Situation.entriesAt
  dsimp only
  generalize contract.node? id = node, other.node? id = twin at hrel ⊢
  cases hrel with
  | none => exact .nil
  | some hnode =>
    refine List.rel_map (fun slot twin hslot => ?_) hnode.forall₂_effects
    exact (h.looksLike roster selected extensions).judged_matches hnode.id_eq hslot

theorem report_matches (h : contract.MeansLike other) (roster : Roster) (selection : Selection)
    (ratios : PreventionRatios) (extensions : Extensions) :
    (contract.poolReport roster selection ratios extensions).Matches
      (other.poolReport roster selection ratios extensions) := by
  unfold poolReport
  rw [h.opensLike.effective_eq roster]
  exact Situation.report_matches ratios (h.docket_matches roster _ extensions)

/-! ### Validation -/

theorem explore_eq (h : contract.MeansLike other) (queue : List String) (seen : IdSet) :
    contract.explore queue seen = other.explore queue seen := by
  fun_induction contract.explore queue seen with
  | case1 seen => rw [explore]
  | case2 seen id rest hseen ih => rw [explore, if_pos hseen, ih]
  | case3 seen id rest hseen hnode ih =>
    have htwin : other.node? id = none := h.opensLike.node?_eq_none_iff.1 hnode
    rw [explore, if_neg hseen, ih]
    split
    · rfl
    · rename_i twin hfound
      rw [htwin] at hfound
      cases hfound
  | case4 seen id rest hseen node hnode ih =>
    obtain ⟨twin, htwin, hlike⟩ := exists_of_rel_some (hnode ▸ h.rel_node? id)
    rw [explore, if_neg hseen, ih, hlike.connections_eq]
    split
    · rename_i hfound
      rw [htwin] at hfound
      cases hfound
    · rename_i found hfound
      cases htwin.symm.trans hfound
      rfl

theorem starts_eq (h : contract.MeansLike other) : contract.starts = other.starts := by
  rw [← List.forall₂_eq_eq_eq]
  refine List.rel_map (R := Node.MeansLike) (fun _ _ hnode => hnode.id_eq) ?_
  refine List.rel_filter (fun node twin hnode => ?_) h
  dsimp only
  rw [hnode.kind_eq]

theorem reachable_eq (h : contract.MeansLike other) : contract.reachable = other.reachable := by
  rw [reachable, reachable, h.starts_eq, h.explore_eq]

section Findings

variable {node twin : Node}

theorem effectDefects_eq (hnode : node.MeansLike twin) : effectDefects node = effectDefects twin := by
  rw [← List.forall₂_eq_eq_eq]
  refine List.rel_filterMap ?_ hnode.forall₂_effects
  rintro ⟨slot, rule⟩ ⟨_, other⟩ ⟨hslot, hrule⟩
  dsimp only at hslot hrule
  subst hslot
  cases hrule with
  | same =>
    rw [hnode.id_eq]
    dsimp only
    split
    · exact .none
    · exact .some rfl
  | reworded hread htwin =>
    -- a slot that denotes an effect is no defect, however it is worded
    simp only [EffectSlot.effect, hread, htwin]
    exact .none

theorem ruleDefects_eq (h : contract.MeansLike other) (hnode : node.MeansLike twin)
    (rule : GateRule) : contract.ruleDefects node rule = other.ruleDefects twin rule := by
  have hnone (id : String) : (contract.node? id).isNone = (other.node? id).isNone := by
    rw [Bool.eq_iff_iff, Option.isNone_iff_eq_none, Option.isNone_iff_eq_none,
      h.opensLike.node?_eq_none_iff]
  unfold ruleDefects
  cases rule.demand with
  | nodes ids => simp only [hnone, hnode.id_eq]
  | runnerTypes types => rfl
  | runnerStats stats => rfl

theorem gateDefects_eq (h : contract.MeansLike other) (hnode : node.MeansLike twin) :
    contract.gateDefects node = other.gateDefects twin := by
  have heffects : node.effects = [] ↔ twin.effects = [] := by
    rw [← List.length_eq_zero_iff, hnode.forall₂_effects.length_eq, List.length_eq_zero_iff]
  have hgate := hnode.gate
  unfold gateDefects
  simp only [heffects, hnode.id_eq]
  congr 1
  generalize node.gate = rule, twin.gate = otherRule at hgate ⊢
  cases hgate with
  | none => rfl
  | @some rule _ hrule =>
    cases hrule with
    | same =>
      dsimp only
      split
      · rfl
      · exact h.ruleDefects_eq hnode _
    | reworded hread htwin =>
      simp only [hread, htwin]
      exact h.ruleDefects_eq hnode _

theorem nodeDefects_eq (h : contract.MeansLike other) (hnode : node.MeansLike twin) :
    contract.nodeDefects node = other.nodeDefects twin := by
  rw [nodeDefects, nodeDefects, effectDefects_eq hnode, hnode.kind_eq, h.gateDefects_eq hnode]

theorem length_kindCautions (hnode : node.MeansLike twin) :
    (kindCautions node).length = (kindCautions twin).length := by
  have hrule (rule : GateRule) : ruleCautions node rule = ruleCautions twin rule := by
    unfold ruleCautions
    rw [hnode.id_eq]
  have hgate := hnode.gate
  unfold kindCautions
  simp only [hnode.kind_eq, hnode.gateRule_eq, hnode.connections_eq, hnode.id_eq, hrule]
  split
  · rfl
  · rw [List.length_append, List.length_append]
    generalize node.gate = rule, twin.gate = otherRule at hgate ⊢
    cases hgate <;> rfl

end Findings

theorem errors_eq (h : contract.MeansLike other) :
    contract.validate.errors = other.validate.errors := by
  have hdefects : contract.nodes.flatMap contract.nodeDefects =
      other.nodes.flatMap other.nodeDefects := by
    rw [← List.forall₂_eq_eq_eq]
    refine List.rel_flatMap h fun node twin hnode => ?_
    rw [h.nodeDefects_eq hnode]
    exact List.forall₂_refl _
  simp only [validate, h.starts_eq, hdefects]

theorem length_warnings (h : contract.MeansLike other) :
    contract.validate.warnings.length = other.validate.warnings.length := by
  simp only [validate, List.length_flatMap, h.reachable_eq]
  congr 1
  rw [← List.forall₂_eq_eq_eq]
  refine List.rel_map (R := Node.MeansLike) (fun node twin hnode => ?_) h
  simp only [nodeCautions, List.length_append, length_kindCautions hnode, hnode.id_eq]

end MeansLike

end Contract

end PerkGraph
