import PerkGraph.Proofs.TraceRecord
import PerkGraph.Proofs.WhatIf

/-!
# Conditions that keep holding

Conditions ask for what is selected and never for what is not: a color, or a set of colors, among the selected nodes.
So a condition that holds for some selected ids holds for more of them (`Situation.holds_mono`), whether or not it
counts the node that asks. Extensions are free to do otherwise, and are left out. Selecting a node takes none of the
ids in effect away; hence every effect that had its turn in the trace before has its turn in the trace after, though
both traces are made from nothing (`Contract.selecting_keeps_turns`).
-/

namespace PerkGraph

namespace Situation

variable {situation : Situation} {larger : IdSet}

/-! ## More ids, more conditions -/

theorem mem_colors {p : String → Bool} {color : NodeColor} :
    color ∈ situation.colors p ↔
      ∃ id ∈ situation.selected, p id = true ∧
        ∃ node, situation.contract.node? id = some node ∧ node.color = color := by
  simp only [colors, List.mem_filterMap, List.mem_filter, Option.map_eq_some_iff, IdSet.mem_def,
    and_assoc]

theorem colors_mono (hmore : situation.selected ⊆ larger) {p : String → Bool} {color : NodeColor}
    (h : color ∈ situation.colors p) : color ∈ { situation with selected := larger }.colors p := by
  obtain ⟨id, hid, hnode⟩ := mem_colors.1 h
  exact mem_colors.2 ⟨id, hmore id hid, hnode⟩

/-- A condition that no extension answers keeps holding when more is selected. -/
theorem holds_mono (hmore : situation.selected ⊆ larger) {condition : Condition} {subject : String}
    (hown : ∀ kind argument, condition ≠ .extension kind argument)
    (h : situation.holds condition subject = .ok true) :
    { situation with selected := larger }.holds condition subject = .ok true := by
  cases condition with
  | always => rfl
  | runnerType type => exact h
  | runnerStat stat comparison value => exact h
  | nodeColor color =>
    simp only [holds, Except.ok.injEq, List.contains_iff_mem] at h ⊢
    exact colors_mono hmore h
  | nodeColorCombo colors =>
    simp only [holds, Except.ok.injEq, List.all_eq_true, List.contains_iff_mem] at h ⊢
    exact fun color hcolor => colors_mono hmore (h color hcolor)
  | extension kind argument => exact absurd rfl (hown kind argument)

/-! ## More turns -/

variable {node : Node} {slot : EffectSlot} {entry : TraceEntry}

theorem HasSlot.mono (hmore : situation.selected ⊆ larger) (h : situation.HasSlot node slot) :
    { situation with selected := larger }.HasSlot node slot :=
  ⟨hmore _ h.selected, h.found, h.listed⟩

theorem Records.isTurn_iff (h : situation.Records node slot entry) :
    entry.content.isTurn = true ↔
      ∃ effect, slot.effect = .ok effect ∧ situation.holds effect.condition node.id = .ok true := by
  rw [EffectOutcome.isTurn_iff]
  exact h.turn

/-- Where nobody answers for extensions, none of their conditions holds. -/
theorem ne_extension_of_holds (hunresolved : situation.extensions = .unresolved)
    {condition : Condition} {subject : String} (h : situation.holds condition subject = .ok true)
    (kind : ExtensionKind) (argument : Option String) : condition ≠ .extension kind argument := by
  rintro rfl
  rw [holds, hunresolved] at h
  cases h

/-- The trace made from more ids has an entry for each turn taken before, and there it is taken again. -/
theorem exists_turn_of_subset (hunresolved : situation.extensions = .unresolved)
    (hmore : situation.selected ⊆ larger) (hentry : entry ∈ (settleDocket situation.docket).2)
    (hturn : entry.content.isTurn = true) :
    ∃ later ∈ (settleDocket { situation with selected := larger }.docket).2,
      later.node = entry.node ∧ later.slot = entry.slot ∧ later.content.isTurn = true := by
  obtain ⟨node, slot, hslot, hrecords⟩ := exists_records hentry
  obtain ⟨effect, heffect, hholds⟩ := hrecords.isTurn_iff.1 hturn
  obtain ⟨later, hlater, hagain⟩ := (hslot.mono hmore).exists_entry
  have hstill := holds_mono hmore (ne_extension_of_holds hunresolved hholds) hholds
  exact ⟨later, hlater, hagain.node_eq.trans hrecords.node_eq.symm,
    hagain.slot_eq.trans hrecords.slot_eq.symm, hagain.isTurn_iff.2 ⟨effect, heffect, hstill⟩⟩

end Situation

/-! ## The main statement -/

/-- **Selecting a node costs no effect its turn**, whatever was selected before. A condition that is not an extension's
holds for every larger set of ids for which it held for a smaller one. Where extensions are left unresolved, an effect
that was applied, or that arithmetic alone kept from it, has one entry in the trace after, and again it is applied or
fails by arithmetic. -/
theorem Contract.selecting_keeps_turns (contract : Contract) (roster : Roster) :
    (∀ (extensions : Extensions) (condition : Condition) (subject : String) (fewer more : IdSet),
      fewer ⊆ more → (∀ kind argument, condition ≠ .extension kind argument) →
      Situation.holds { contract, roster, selected := fewer, extensions } condition subject = .ok true →
      Situation.holds { contract, roster, selected := more, extensions } condition subject = .ok true) ∧
    ∀ (selection : Selection) (id : String) (update : SelectionUpdate) (ratios : PreventionRatios),
      contract.select roster selection id = .ok update →
      let before := (contract.poolReport roster selection ratios .unresolved).trace
      let after := (contract.poolReport roster update.selection ratios .unresolved).trace
      ∀ entry ∈ before, entry.content.isTurn = true →
        ∃ later ∈ after, later.node = entry.node ∧ later.slot = entry.slot ∧
          later.content.isTurn = true ∧
          ∀ other ∈ after, other.node = entry.node → other.slot = entry.slot → other = later := by
  refine ⟨fun extensions condition subject fewer more hmore hown hholds => ?_,
    fun selection id update ratios hselect => ?_⟩
  · exact Situation.holds_mono hmore hown hholds
  · intro before after entry hentry hturn
    have hmore := effective_subset_of_select hselect
    obtain ⟨later, hlater, hnode, hslot, hagain⟩ :=
      Situation.exists_turn_of_subset rfl hmore hentry hturn
    have hpairwise : after.Pairwise SlotEntry.Precedes :=
      pairwise_settleDocket (Situation.pairwise_docket)
    refine ⟨later, hlater, hnode, hslot, hagain, fun other hother hnode' hslot' => ?_⟩
    exact eq_of_precedes hpairwise hother hlater (hnode'.trans hnode.symm) (hslot'.trans hslot.symm)

/-- Selecting `alley` puts its effect in front of the others. The product on the same pool has its turn with
another value, and the division by zero fails again. -/
theorem Contract.selecting_keeps_turns_shifted :
    let contract : Contract :=
      { name := "heist"
        nodes :=
          [.ofRecord { id := "alley", color := .blue, effect1 := some "NodeColor:Grey;+;4;Money" },
            .ofRecord
              { id := "start", kind := .start, effect1 := some "None;*;2;Money"
                effect2 := some "None;/;0;Damage", connections := ["alley"] }]
        ascending := by decide
        wellFormed := by decide
        closed := by decide }
    let selection : Selection := { ids := ["start"], nodup := by decide }
    let update : SelectionUpdate :=
      { selection := { ids := ["start", "alley"], nodup := by decide }, demoted := .empty }
    let before := (contract.poolReport .empty selection {} .unresolved).trace
    let after := (contract.poolReport .empty update.selection {} .unresolved).trace
    contract.select .empty selection "alley" = .ok update ∧
    before.map SlotEntry.content =
      [.applied .money .zero .zero, .failed (.arithmetic .divisionByZero)] ∧
    after.map SlotEntry.content =
      [.applied .money .zero { val := 4 }, .applied .money { val := 4 } { val := 8 },
        .failed (.arithmetic .divisionByZero)] ∧
    ∀ entry ∈ before, ∃ later ∈ after, later.node = entry.node ∧ later.slot = entry.slot ∧
      later.content.isTurn = true := by
  intro contract selection update before after
  have hselect : contract.select .empty selection "alley" = .ok update := by decide +kernel
  have hturns : ∀ entry ∈ before, entry.content.isTurn = true := by decide +kernel
  refine ⟨hselect, by decide +kernel, by decide +kernel, fun entry hentry => ?_⟩
  obtain ⟨later, hlater, hnode, hslot, hturn, -⟩ := (selecting_keeps_turns contract .empty).2
    selection "alley" update {} hselect entry hentry (hturns entry hentry)
  exact ⟨later, hlater, hnode, hslot, hturn⟩

end PerkGraph
