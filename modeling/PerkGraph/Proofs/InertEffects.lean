import PerkGraph.Proofs.EditedRecords
import PerkGraph.Proofs.PoolInputs
import PerkGraph.Proofs.TraceRecord

/-!
# Effects that come to nothing

An effect that fails, or whose condition does not hold, contributes nothing: take its text out of the records,
and the totals, the prevention and every other entry of the trace are what they were
(`Contract.inert_effects_contribute_nothing`). An inert outcome is one that left the totals alone in whichever
of the two passes it came about (`turns_of_isInert`), so every turn after it finds the same totals with it and
without it. This holds of several slots at a time, and is proved for all slots that fail a test
(`settleDocket_filterSlots`). The records themselves enter in two ways only: they build nodes that lack those effects
and nothing else (`NodeRecord.isEdit_filterEffects`), and a docket of such nodes lacks the entries of those slots
(`Contract.docket_filterEffects`), since neither opening a node nor a condition asks for the effects of any.
-/

namespace PerkGraph

/-! ## Inert outcomes -/

/-- The effect left the totals alone. -/
def EffectOutcome.isInert : EffectOutcome → Bool
  | .applied _ _ _ => false
  | .conditionNotMet | .failed _ => true

theorem Pools.applyEffect_of_isInert {pools : Pools} {effect : Effect}
    (h : (pools.applyEffect effect).2.isInert = true) : (pools.applyEffect effect).1 = pools := by
  cases hresult : effect.operator.apply (pools.get effect.stat) effect.amount with
  | error error => rw [applyEffect_of_error hresult]
  | ok after =>
    rw [applyEffect_of_ok hresult] at h
    cases h

/-- A verdict that ends in an inert outcome left the totals alone in both passes. -/
theorem Verdict.turns_of_isInert {verdict : Verdict} {first second : Pools}
    (h : (second.lastTurn (first.additiveTurn verdict).2).2.isInert = true) :
    (first.additiveTurn verdict).1 = first ∧
      (second.lastTurn (first.additiveTurn verdict).2).1 = second := by
  cases verdict with
  | settled outcome => exact ⟨rfl, rfl⟩
  | pending effect =>
    unfold Pools.additiveTurn at h ⊢
    by_cases hadditive : effect.operator.isAdditive = true
    · simp only [hadditive, if_true] at h ⊢
      exact ⟨Pools.applyEffect_of_isInert h, rfl⟩
    · simp only [hadditive] at h ⊢
      exact ⟨rfl, Pools.applyEffect_of_isInert h⟩

/-! ## Leaving entries out -/

/-- The entries of the slots that pass a test. -/
def filterSlots {α : Type} (keep : String → SlotNumber → Bool) (entries : List (SlotEntry α)) :
    List (SlotEntry α) :=
  entries.filter fun entry => keep entry.node entry.slot

section Filter

variable {keep : String → SlotNumber → Bool} {docket : List (SlotEntry Verdict)}

theorem filterSlots_cons {α : Type} (entry : SlotEntry α) (rest : List (SlotEntry α)) :
    filterSlots keep (entry :: rest) =
      if keep entry.node entry.slot = true then entry :: filterSlots keep rest
      else filterSlots keep rest :=
  List.filter_cons

/-- Where all entries left out are inert, the others take their turns as before. -/
theorem takeTurns_filterSlots (docket : List (SlotEntry Verdict)) (first second : Pools)
    (h : ∀ entry ∈ (takeTurns Pools.lastTurn second (takeTurns Pools.additiveTurn first docket).2).2,
      keep entry.node entry.slot = false → entry.content.isInert = true) :
    let sums := takeTurns Pools.additiveTurn first docket
    let final := takeTurns Pools.lastTurn second sums.2
    let others := takeTurns Pools.additiveTurn first (filterSlots keep docket)
    others.1 = sums.1 ∧
      takeTurns Pools.lastTurn second others.2 = (final.1, filterSlots keep final.2) := by
  induction docket generalizing first second with
  | nil => exact ⟨rfl, rfl⟩
  | cons entry rest ih =>
    rw [takeTurns_cons, takeTurns_cons, List.forall_mem_cons] at h
    obtain ⟨hentry, hrest⟩ := h
    obtain ⟨hsums, hfinal⟩ := ih _ _ hrest
    intro sums final others
    simp only [sums, final, others, filterSlots_cons, takeTurns_cons, SlotEntry.node_withContent,
      SlotEntry.slot_withContent, SlotEntry.content_withContent] at hentry hfinal ⊢
    by_cases hkeep : keep entry.node entry.slot = true
    · -- the entry takes both of its turns, and the others find what it left
      simp only [hkeep, if_true, takeTurns_cons, SlotEntry.content_withContent, hfinal]
      exact ⟨hsums, trivial⟩
    · -- the others find what they would have found after the entry
      rw [Bool.not_eq_true] at hkeep
      obtain ⟨hfirst, hsecond⟩ := Verdict.turns_of_isInert (hentry hkeep)
      rw [hfirst] at hsums hfinal
      rw [hsecond] at hfinal
      simp only [hkeep, Bool.false_eq_true, if_false, hfirst, hsecond]
      exact ⟨hsums, hfinal⟩

theorem settleDocket_filterSlots
    (h : ∀ entry ∈ (settleDocket docket).2,
      keep entry.node entry.slot = false → entry.content.isInert = true) :
    settleDocket (filterSlots keep docket) =
      ((settleDocket docket).1, filterSlots keep (settleDocket docket).2) := by
  obtain ⟨hsums, hfinal⟩ := takeTurns_filterSlots docket .zero
    (takeTurns Pools.additiveTurn .zero docket).1 h
  unfold settleDocket
  simp only
  rw [hsums]
  exact hfinal

end Filter

/-! ## Records, nodes and contracts -/

/-- The record with the effects of those slots that pass a test. -/
def NodeRecord.filterEffects (keep : String → SlotNumber → Bool) (record : NodeRecord) : NodeRecord :=
  { record with
    effect1 := if keep record.id .first then record.effect1 else none
    effect2 := if keep record.id .second then record.effect2 else none }

/-- The record as it is, but without the effect in the given slot if it is the record of the given node. -/
def NodeRecord.withoutEffect (id : String) (slot : SlotNumber) : NodeRecord → NodeRecord :=
  filterEffects fun node number => (node, number) ≠ (id, slot)

/-- The node with the effects of those slots that pass a test. -/
def Node.filterEffects (keep : String → SlotNumber → Bool) (node : Node) : Node :=
  { node with
    effect1 := if keep node.id .first then node.effect1 else none
    effect2 := if keep node.id .second then node.effect2 else none }

section FilterEffects

variable {keep : String → SlotNumber → Bool}

theorem Node.ofRecord_filterEffects (record : NodeRecord) :
    ofRecord (record.filterEffects keep) = (ofRecord record).filterEffects keep := by
  have hslot (kept : Bool) (raw : Option String) :
      (if kept then raw else none).bind RuleText.ofString? =
        if kept then raw.bind RuleText.ofString? else none := by
    cases kept <;> rfl
  simp only [ofRecord, NodeRecord.filterEffects, hslot]
  rfl

theorem Node.effects_filterEffects (node : Node) :
    (node.filterEffects keep).effects = node.effects.filter fun slot => keep node.id slot.slot := by
  have hslot (slot : SlotNumber) (rule : Option RuleText) :
      ((if keep node.id slot then rule else none).map fun raw => ({ slot, raw } : EffectSlot)).toList =
        (rule.map fun raw => ({ slot, raw } : EffectSlot)).toList.filter
          fun other => keep node.id other.slot := by
    cases rule <;> cases hkeep : keep node.id slot <;> simp [hkeep]
  simp only [effects, filterEffects, hslot, List.filter_append]

theorem NodeRecord.isEdit_filterEffects (keep : String → SlotNumber → Bool) :
    IsEdit (filterEffects keep) fun node twin => twin = node.filterEffects keep where
  id_eq := by
    rintro node _ rfl
    rfl
  connections_eq := by
    rintro node _ rfl
    rfl
  related := Node.ofRecord_filterEffects

namespace Contract

variable {contract other : Contract}
  (h : List.Forall₂ (fun node twin => twin = node.filterEffects keep) contract.nodes other.nodes)
include h

theorem opensLike_filterEffects : contract.OpensLike other := by
  refine List.Forall₂.imp ?_ h
  rintro node _ rfl
  exact ⟨rfl, rfl, rfl, fun _ => Iff.rfl⟩

theorem node?_filterEffects (id : String) :
    other.node? id = (contract.node? id).map (Node.filterEffects keep) := by
  have hrel := rel_find?_id (by rintro node _ rfl; rfl) h id
  change Option.Rel _ (contract.node? id) (other.node? id) at hrel
  generalize contract.node? id = node, other.node? id = twin at hrel ⊢
  cases hrel with
  | none => rfl
  | some htwin => exact congrArg some htwin

theorem looksLike_filterEffects (roster : Roster) (selected : IdSet) (extensions : Extensions) :
    Situation.LooksLike { contract := other, roster, selected, extensions }
      { contract, roster, selected, extensions } where
  roster_eq := rfl
  selected_eq := rfl
  extensions_eq := rfl
  color_eq id _ := by
    change (other.node? id).map Node.color = (contract.node? id).map Node.color
    rw [node?_filterEffects h, Option.map_map]
    rfl

theorem judged_filterEffects (roster : Roster) (selected : IdSet) (extensions : Extensions) (node : Node)
    (slot : EffectSlot) :
    Situation.judged { contract := other, roster, selected, extensions } (node.filterEffects keep) slot =
      Situation.judged { contract, roster, selected, extensions } node slot := by
  have hjudge : Situation.judge { contract := other, roster, selected, extensions }
      (node.filterEffects keep) slot = Situation.judge { contract, roster, selected, extensions } node slot :=
    (looksLike_filterEffects h roster selected extensions).judge_eq rfl rfl
  rw [Situation.judged, Situation.judged, hjudge]
  rfl

/-- Without some effects, a docket is what it was without their entries. -/
theorem docket_filterEffects (roster : Roster) (selected : IdSet) (extensions : Extensions) :
    Situation.docket { contract := other, roster, selected, extensions } =
      filterSlots keep (Situation.docket { contract, roster, selected, extensions }) := by
  rw [Situation.docket_eq_flatMap, Situation.docket_eq_flatMap, filterSlots, List.filter_flatMap]
  refine List.flatMap_congr fun id _ => ?_
  unfold Situation.entriesAt
  simp only [node?_filterEffects h]
  cases contract.node? id with
  | none => rfl
  | some node =>
    simp only [Option.map_some, Node.effects_filterEffects, List.filter_map, Function.comp_def,
      Situation.node_judged, Situation.slot_judged]
    refine List.map_congr_left fun slot _ => ?_
    exact judged_filterEffects h roster selected extensions node slot

end Contract

end FilterEffects

/-! ## The main statement -/

namespace Contract

/-- Without effects that were inert, a report is what it was without their entries. -/
theorem poolReport_filterEffects {keep : String → SlotNumber → Bool} {contract other : Contract}
    (h : List.Forall₂ (fun node twin => twin = node.filterEffects keep) contract.nodes other.nodes)
    {roster : Roster} {selection : Selection} {ratios : PreventionRatios} {extensions : Extensions}
    (hinert : ∀ entry ∈ (contract.poolReport roster selection ratios extensions).trace,
      keep entry.node entry.slot = false → entry.content.isInert = true) :
    other.poolReport roster selection ratios extensions =
      { contract.poolReport roster selection ratios extensions with
        trace := filterSlots keep (contract.poolReport roster selection ratios extensions).trace } := by
  have heffective := (opensLike_filterEffects h).effective_eq roster selection
  have hsettled := settleDocket_filterSlots hinert
  rw [poolReport, ← heffective, Situation.report, docket_filterEffects h, hsettled]
  rfl

/-- **An effect that fails or is not met contributes nothing.** Records without its text build a contract again,
and whatever the selection, the team and the prices, the report of that contract is the same but for the entry
of the effect: the totals, the prevention and all other entries, with what they found and what they left, are
unchanged. -/
theorem inert_effects_contribute_nothing {name : String} {records : List NodeRecord}
    {contract : Contract} (hbuild : build name records = .ok contract) (roster : Roster)
    (selection : Selection) (ratios : PreventionRatios) (extensions : Extensions) :
    let report := contract.poolReport roster selection ratios extensions
    ∀ entry ∈ report.trace, entry.content.isInert = true →
      ∃ other, build name (records.map (.withoutEffect entry.node entry.slot)) = .ok other ∧
        other.poolReport roster selection ratios extensions =
          { report with trace := report.trace.erase entry } := by
  intro report entry hentry hinert
  let keep (node : String) (slot : SlotNumber) : Bool := (node, slot) ≠ (entry.node, entry.slot)
  have hprecedes : report.trace.Pairwise SlotEntry.Precedes :=
    pairwise_settleDocket (Situation.pairwise_docket)
  -- the test leaves out one entry, as node and slot tell entries apart
  have honly {x : TraceEntry} (hx : x ∈ report.trace) : keep x.node x.slot = false ↔ x = entry := by
    simp only [keep, decide_eq_false_iff_not, ne_eq, not_not, Prod.mk.injEq]
    constructor
    · rintro ⟨hnode, hslot⟩
      exact eq_of_precedes hprecedes hx hentry hnode hslot
    · rintro rfl
      exact ⟨rfl, rfl⟩
  have herase : report.trace.erase entry = filterSlots keep report.trace := by
    have hnodup : report.trace.Nodup := (nodup_map_key hprecedes).of_map _
    rw [hnodup.erase_eq_filter, filterSlots]
    refine List.filter_congr fun x hx => ?_
    rw [Bool.eq_iff_iff, bne_iff_ne, Ne, ← honly hx, Bool.not_eq_false]
  obtain ⟨other, hother, hnodes⟩ := exists_build_map (NodeRecord.isEdit_filterEffects keep) hbuild
  refine ⟨other, hother, ?_⟩
  rw [herase]
  refine poolReport_filterEffects hnodes fun x hx hdropped => ?_
  rw [(honly hx).1 hdropped]
  exact hinert

/-- A division by zero between effects on the same pool: the sum before it and the product after it are the same
without it. -/
theorem inert_effects_contribute_nothing_division :
    let records : List NodeRecord :=
      [{ id := "start", kind := .start, effect1 := some "None;+;9;Damage"
         effect2 := some "None;/;0;Damage", connections := ["vault"] },
        { id := "vault", effect1 := some "None;*;2;Damage" }]
    let contract : Contract :=
      { name := "heist"
        nodes := records.map .ofRecord
        ascending := by decide
        wellFormed := by decide
        closed := by decide }
    let selection : Selection := { ids := ["start", "vault"], nodup := by decide }
    let report := contract.poolReport .empty selection {} .unresolved
    let entry : TraceEntry :=
      { node := "start", slot := .second, raw := "None;/;0;Damage"
        content := .failed (.arithmetic .divisionByZero) }
    build "heist" records = .ok contract ∧ entry ∈ report.trace ∧
      ∃ other, build "heist" (records.map (.withoutEffect "start" .second)) = .ok other ∧
        other.poolReport .empty selection {} .unresolved =
          { report with trace := report.trace.erase entry } := by
  intro records contract selection report entry
  have hbuild : build "heist" records = .ok contract := by rfl
  have hentry : entry ∈ report.trace := by decide +kernel
  exact ⟨hbuild, hentry,
    inert_effects_contribute_nothing hbuild .empty selection {} .unresolved entry hentry rfl⟩

end Contract

end PerkGraph
