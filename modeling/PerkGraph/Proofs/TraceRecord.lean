import Mathlib.Data.List.Forall2
import Mathlib.Data.List.Nodup
import PerkGraph.Proofs.Draft
import PerkGraph.Proofs.PoolLedger

/-!
# What a trace records

The trace of a pool report has one entry for each effect slot of the nodes in effect, in ascending order of
node and slot, and none besides (`poolReport_records`). An entry tells what became of the effect in its slot:
its text is no effect, an extension leaves its condition open, its condition does not hold, or it had its
turn (`Records`). That an unmet condition stands in for an effect that awaits its turn never shows: the
outcomes that a verdict may end in (`Verdict.Yields`) keep the two apart, whichever of the two passes has
the turn (`settleDocket_endsIn`).
-/

namespace PerkGraph

/-! ## Order -/

/-- The slot that an entry stands for. -/
def SlotEntry.key {α : Type} (entry : SlotEntry α) : String × SlotNumber :=
  (entry.node, entry.slot)

/-- The order of the entries of a trace: by node, and by slot within a node. -/
def SlotEntry.Precedes {α : Type} (x y : SlotEntry α) : Prop :=
  x.node < y.node ∨ x.node = y.node ∧ x.slot.toNat < y.slot.toNat

theorem Contract.isAscending_filterMap_node? (contract : Contract) (ids : IdSet) :
    IsAscending Node.id (ids.toList.filterMap contract.node?) := by
  unfold IsAscending
  rw [List.pairwise_filterMap]
  refine ids.ascending.imp fun {x y} hxy node hnode other hother => ?_
  rw [Contract.id_of_node? hnode, Contract.id_of_node? hother]
  exact hxy

namespace Situation

variable {situation : Situation}

theorem pairwise_docket : situation.docket.Pairwise SlotEntry.Precedes := by
  unfold docket
  rw [List.pairwise_flatMap]
  constructor
  · intro node _
    rw [List.pairwise_map]
    exact node.pairwise_effects.imp fun hslot => .inr ⟨rfl, hslot⟩
  · refine (situation.contract.isAscending_filterMap_node? situation.selected).imp
      fun {node other} hid => ?_
    intro x hx y hy
    obtain ⟨_, -, rfl⟩ := List.mem_map.1 hx
    obtain ⟨_, -, rfl⟩ := List.mem_map.1 hy
    exact .inl hid

end Situation

/-! ## Outcomes of a verdict -/

/-- The outcomes that a verdict may end in. -/
inductive Verdict.Yields : Verdict → EffectOutcome → Prop
  | settled (outcome : EffectOutcome) : Yields (.settled outcome) outcome
  | turn {effect : Effect} {outcome : EffectOutcome} (h : outcome.isTurn = true) :
      Yields (.pending effect) outcome

theorem EffectOutcome.isTurn_iff {outcome : EffectOutcome} :
    outcome.isTurn = true ↔ (∃ stat before after, outcome = .applied stat before after) ∨
      ∃ error, outcome = .failed (.arithmetic error) := by
  cases outcome with
  | applied stat before after => simp [isTurn]
  | conditionNotMet => simp [isTurn]
  | failed failure => cases failure <;> simp [isTurn]

theorem Pools.isTurn_applyEffect (pools : Pools) (effect : Effect) :
    (pools.applyEffect effect).2.isTurn = true := by
  cases h : effect.operator.apply (pools.get effect.stat) effect.amount with
  | error error => rw [applyEffect_of_error h]; rfl
  | ok after => rw [applyEffect_of_ok h]; rfl

/-- Between them the two turns of an entry let its verdict yield. -/
theorem Verdict.yields_turns (verdict : Verdict) (first second : Pools) :
    verdict.Yields (second.lastTurn (first.additiveTurn verdict).2).2 := by
  cases verdict with
  | settled outcome => exact .settled outcome
  | pending effect =>
    unfold Pools.additiveTurn
    by_cases hadditive : effect.operator.isAdditive = true
    · simp only [hadditive, if_true]
      exact .turn (first.isTurn_applyEffect effect)
    · simp only [hadditive]
      exact .turn (second.isTurn_applyEffect effect)

/-- The second entry is the first one with an outcome that its verdict may end in. -/
def SlotEntry.EndsIn (judged : SlotEntry Verdict) (entry : TraceEntry) : Prop :=
  ∃ outcome, entry = judged.withContent outcome ∧ judged.content.Yields outcome

theorem takeTurns_endsIn (docket : List (SlotEntry Verdict)) (first second : Pools) :
    List.Forall₂ SlotEntry.EndsIn docket
      (takeTurns Pools.lastTurn second (takeTurns Pools.additiveTurn first docket).2).2 := by
  induction docket generalizing first second with
  | nil => exact .nil
  | cons entry rest ih =>
    rw [takeTurns_cons, takeTurns_cons]
    exact .cons ⟨_, rfl, entry.content.yields_turns first second⟩ (ih _ _)

theorem settleDocket_endsIn (docket : List (SlotEntry Verdict)) :
    List.Forall₂ SlotEntry.EndsIn docket (settleDocket docket).2 :=
  takeTurns_endsIn docket _ _

section Docket

variable {docket : List (SlotEntry Verdict)}

theorem exists_getElem?_settleDocket {place : Nat} {entry : SlotEntry Verdict}
    (h : docket[place]? = some entry) :
    ∃ outcome, (settleDocket docket).2[place]? = some (entry.withContent outcome) ∧
      entry.content.Yields outcome := by
  obtain ⟨hlt, rfl⟩ := List.getElem?_eq_some_iff.1 h
  have hlt' : place < (settleDocket docket).2.length :=
    (settleDocket_endsIn docket).length_eq ▸ hlt
  obtain ⟨outcome, heq, hyields⟩ := (settleDocket_endsIn docket).get hlt hlt'
  exact ⟨outcome, List.getElem?_eq_some_iff.2 ⟨hlt', heq⟩, hyields⟩

theorem exists_of_mem_settleDocket {entry : TraceEntry} (h : entry ∈ (settleDocket docket).2) :
    ∃ judged ∈ docket, ∃ outcome, entry = judged.withContent outcome ∧
      judged.content.Yields outcome := by
  obtain ⟨place, hlt, rfl⟩ := List.mem_iff_getElem.1 h
  have hlt' : place < docket.length := (settleDocket_endsIn docket).length_eq ▸ hlt
  exact ⟨docket[place], List.getElem_mem hlt', (settleDocket_endsIn docket).get hlt' hlt⟩

/-- The turn of an effect noted down is taken at its place, where an unmet condition stood for it. -/
theorem exists_turn_of_mem_pending {place : Nat} {effect : Effect}
    (h : (place, effect) ∈ (Draft.ofDocket docket).pending) :
    ∃ entry, (Draft.ofDocket docket).trace[place]? = some (entry.withContent .conditionNotMet) ∧
      (settleDocket docket).2[place]? = some entry ∧ entry.content.isTurn = true := by
  rw [Draft.ofDocket_eq] at h ⊢
  obtain ⟨⟨id, slot, raw, verdict⟩, hplace, heffect⟩ := Draft.mem_pendingFrom_zero.1 h
  cases verdict with
  | settled outcome => simp [Verdict.effect?] at heffect
  | pending noted =>
    obtain ⟨outcome, hentry, hyields⟩ := exists_getElem?_settleDocket hplace
    cases hyields with
    | turn hturn =>
      refine ⟨_, ?_, hentry, hturn⟩
      rw [List.getElem?_map, hplace]
      rfl

/-- Settling a docket keeps its slots. -/
theorem map_key_settleDocket (docket : List (SlotEntry Verdict)) :
    (settleDocket docket).2.map SlotEntry.key = docket.map SlotEntry.key := by
  rw [← List.forall₂_eq_eq_eq, List.forall₂_map_left_iff, List.forall₂_map_right_iff]
  refine (settleDocket_endsIn docket).flip.imp ?_
  rintro _ judged ⟨outcome, rfl, -⟩
  rfl

theorem pairwise_settleDocket (h : docket.Pairwise SlotEntry.Precedes) :
    (settleDocket docket).2.Pairwise SlotEntry.Precedes := by
  -- the order is one of the keys, and these are the same on both sides
  let before (x y : String × SlotNumber) : Prop :=
    x.1 < y.1 ∨ x.1 = y.1 ∧ x.2.toNat < y.2.toNat
  have hmap : (docket.map SlotEntry.key).Pairwise before := List.pairwise_map.2 h
  rw [← map_key_settleDocket docket] at hmap
  exact (List.pairwise_map (R := before)).1 hmap

end Docket

theorem nodup_map_key {entries : List TraceEntry} (h : entries.Pairwise SlotEntry.Precedes) :
    (entries.map SlotEntry.key).Nodup := by
  refine List.pairwise_map.2 (h.imp ?_)
  rintro a b (hlt | ⟨-, hlt⟩) heq
  · rw [(Prod.mk.inj heq).1] at hlt
    exact String.lt_irrefl _ hlt
  · rw [(Prod.mk.inj heq).2] at hlt
    exact Nat.lt_irrefl _ hlt

/-- Entries in order are told apart by node and slot. -/
theorem eq_of_precedes {entries : List TraceEntry} (h : entries.Pairwise SlotEntry.Precedes)
    {x y : TraceEntry} (hx : x ∈ entries) (hy : y ∈ entries) (hnode : x.node = y.node)
    (hslot : x.slot = y.slot) : x = y :=
  List.inj_on_of_nodup_map (nodup_map_key h) hx hy (Prod.ext hnode hslot)

/-! ## Entries and slots -/

namespace Situation

/-- The entry tells what became of the effect in a slot. -/
structure Records (situation : Situation) (node : Node) (slot : EffectSlot) (entry : TraceEntry) :
    Prop where
  node_eq : entry.node = node.id
  slot_eq : entry.slot = slot.slot
  raw_eq : entry.raw = slot.raw.text
  malformed : ∀ error, entry.content = .failed (.effect error) ↔ slot.effect = .error error
  unresolved : ∀ kind, entry.content = .failed (.unresolved kind) ↔
    ∃ effect extension argument, slot.effect = .ok effect ∧
      effect.condition = .extension extension argument ∧
      situation.extensions
        { kind := extension, argument, subject := node.id, selected := situation.selected } =
          .error kind
  notMet : entry.content = .conditionNotMet ↔
    ∃ effect, slot.effect = .ok effect ∧ situation.holds effect.condition node.id = .ok false
  turn : (∃ stat before after, entry.content = .applied stat before after) ∨
      (∃ error, entry.content = .failed (.arithmetic error)) ↔
    ∃ effect, slot.effect = .ok effect ∧ situation.holds effect.condition node.id = .ok true

variable {situation : Situation}

theorem holds_eq_error_iff {condition : Condition} {subject kind : String} :
    situation.holds condition subject = .error kind ↔
      ∃ extension argument, condition = .extension extension argument ∧
        situation.extensions
          { kind := extension, argument, subject, selected := situation.selected } =
            .error kind := by
  cases condition <;> simp [holds]

/-- Whatever the verdict on a slot ends in, the entry records the slot. -/
theorem records_of_yields {node : Node} {slot : EffectSlot} {outcome : EffectOutcome}
    (h : (situation.judged node slot).content.Yields outcome) :
    situation.Records node slot ((situation.judged node slot).withContent outcome) := by
  rw [content_judged] at h
  rcases situation.judge_cases node slot with ⟨error, heffect, hjudge⟩ |
    ⟨effect, kind, heffect, hholds, hjudge⟩ | ⟨effect, heffect, hholds, hjudge⟩ |
    ⟨effect, heffect, hholds, hjudge⟩ <;> rw [hjudge] at h
  · cases h
    refine ⟨rfl, rfl, rfl, ?_, ?_, ?_, ?_⟩ <;> simp [heffect]
  · cases h
    refine ⟨rfl, rfl, rfl, ?_, ?_, ?_, ?_⟩ <;> simp [heffect, hholds, ← holds_eq_error_iff]
  · cases h
    refine ⟨rfl, rfl, rfl, ?_, ?_, ?_, ?_⟩ <;> simp [heffect, hholds, ← holds_eq_error_iff]
  · cases h with
    | turn hturn =>
      -- a turn leaves no unmet condition behind
      rcases EffectOutcome.isTurn_iff.1 hturn with ⟨stat, before, after, rfl⟩ | ⟨error, rfl⟩ <;>
        refine ⟨rfl, rfl, rfl, ?_, ?_, ?_, ?_⟩ <;> simp [heffect, hholds, ← holds_eq_error_iff]

theorem exists_records {entry : TraceEntry} (h : entry ∈ (settleDocket situation.docket).2) :
    ∃ node slot, situation.HasSlot node slot ∧ situation.Records node slot entry := by
  obtain ⟨judged, hjudged, outcome, rfl, hyields⟩ := exists_of_mem_settleDocket h
  obtain ⟨node, slot, hslot, rfl⟩ := mem_docket.1 hjudged
  exact ⟨node, slot, hslot, records_of_yields hyields⟩

theorem HasSlot.exists_entry {node : Node} {slot : EffectSlot} (h : situation.HasSlot node slot) :
    ∃ entry ∈ (settleDocket situation.docket).2, situation.Records node slot entry := by
  obtain ⟨place, hplace⟩ := List.getElem?_of_mem (mem_docket.2 ⟨node, slot, h, rfl⟩)
  obtain ⟨outcome, hentry, hyields⟩ := exists_getElem?_settleDocket hplace
  exact ⟨_, List.mem_of_getElem? hentry, records_of_yields hyields⟩

end Situation

/-! ## The main statement -/

/-- **The trace is complete.** It has one entry for each effect slot of the nodes in effect, in ascending
order of node and slot, and no other entry; each entry records its slot. Written by places it is the same
trace: every effect noted down has an entry at its place, and its turn is taken there. -/
theorem Contract.poolReport_records (contract : Contract) (roster : Roster)
    (selection : Selection) (ratios : PreventionRatios) (extensions : Extensions) :
    let report := contract.poolReport roster selection ratios extensions
    let situation : Situation :=
      { contract, roster, selected := contract.effective roster selection, extensions }
    let draft := Draft.ofDocket situation.docket
    report.trace.Pairwise SlotEntry.Precedes ∧
    (∀ entry ∈ report.trace, ∃ node slot, situation.HasSlot node slot ∧
      situation.Records node slot entry) ∧
    (∀ node slot, situation.HasSlot node slot →
      ∃ entry ∈ report.trace, situation.Records node slot entry ∧
        ∀ other ∈ report.trace, other.node = node.id → other.slot = slot.slot → other = entry) ∧
    draft.settle? = some (report.raw, report.trace) ∧
    ∀ place effect, (place, effect) ∈ draft.pending →
      ∃ entry, draft.trace[place]? = some (entry.withContent .conditionNotMet) ∧
        report.trace[place]? = some entry ∧ entry.content.isTurn = true := by
  intro report situation draft
  have hpairwise : report.trace.Pairwise SlotEntry.Precedes :=
    pairwise_settleDocket situation.pairwise_docket
  refine ⟨hpairwise, fun entry hentry => Situation.exists_records hentry, fun node slot hslot => ?_,
    Draft.settle?_ofDocket situation.docket,
    fun place effect hpending => exists_turn_of_mem_pending hpending⟩
  obtain ⟨entry, hentry, hrecords⟩ := hslot.exists_entry
  refine ⟨entry, hentry, hrecords, fun other hother hnode hnumber => ?_⟩
  exact eq_of_precedes hpairwise hother hentry (hnode.trans hrecords.node_eq.symm)
    (hnumber.trans hrecords.slot_eq.symm)

end PerkGraph
