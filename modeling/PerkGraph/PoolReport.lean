import PerkGraph.Availability
import PerkGraph.Prevention
import PerkGraph.Rule.Failure
import PerkGraph.Rule.Situation

/-! # Pool reports

What the effects of the selected nodes add up to. The effect slots of the ids in effect are listed in
ascending order of node and slot, and each is judged: its text may be no effect, its condition may not hold or
may be left open, or it awaits its turn. Additions and subtractions are applied first and all others after
them, each group in the order of the list, so the result depends on the selected set alone. An effect that
fails leaves its pool as it was.
-/

namespace PerkGraph

inductive EffectOutcome where
  | applied (stat : Stat) (before after : Points)
  | conditionNotMet
  | failed (failure : Failure)
deriving DecidableEq

/-- Something about one effect slot of a node. -/
structure SlotEntry (α : Type) where
  node : String
  slot : SlotNumber
  raw : String
  content : α
deriving DecidableEq

/-- One line of a trace: what became of the effect in a slot. -/
abbrev TraceEntry := SlotEntry EffectOutcome

/-- What is known of an effect before its turn. -/
inductive Verdict where
  | settled (outcome : EffectOutcome)
  /-- The condition holds; the effect awaits its turn. -/
  | pending (effect : Effect)
deriving DecidableEq

/-- Everything that a recomputation of the pools yields. -/
structure PoolReport where
  /-- The totals before prevention. -/
  raw : Pools
  /-- The final totals. -/
  pools : Pools
  prevention : Prevention
  trace : List TraceEntry
deriving DecidableEq

/-! ## Judging -/

def Situation.judge (situation : Situation) (node : Node) (slot : EffectSlot) : Verdict :=
  match slot.effect with
  | .error error => .settled (.failed (.effect error))
  | .ok effect =>
    match situation.holds effect.condition node.id with
    | .error kind => .settled (.failed (.unresolved kind))
    | .ok false => .settled .conditionNotMet
    | .ok true => .pending effect

/-- The four verdicts on a slot, each with its reason. -/
theorem Situation.judge_cases (situation : Situation) (node : Node) (slot : EffectSlot) :
    (∃ error, slot.effect = .error error ∧
      situation.judge node slot = .settled (.failed (.effect error))) ∨
    (∃ effect kind, slot.effect = .ok effect ∧
      situation.holds effect.condition node.id = .error kind ∧
      situation.judge node slot = .settled (.failed (.unresolved kind))) ∨
    (∃ effect, slot.effect = .ok effect ∧ situation.holds effect.condition node.id = .ok false ∧
      situation.judge node slot = .settled .conditionNotMet) ∨
    ∃ effect, slot.effect = .ok effect ∧ situation.holds effect.condition node.id = .ok true ∧
      situation.judge node slot = .pending effect := by
  unfold judge
  cases heffect : slot.effect with
  | error error => exact .inl ⟨error, rfl, rfl⟩
  | ok effect =>
    cases hholds : situation.holds effect.condition node.id with
    | error kind => exact .inr (.inl ⟨effect, kind, rfl, hholds, by simp only [hholds]⟩)
    | ok met =>
      cases met with
      | false => exact .inr (.inr (.inl ⟨effect, rfl, hholds, by simp only [hholds]⟩))
      | true => exact .inr (.inr (.inr ⟨effect, rfl, hholds, by simp only [hholds]⟩))

/-- The effect slots of the selected nodes in order, each with its verdict. -/
def Situation.docket (situation : Situation) : List (SlotEntry Verdict) :=
  (situation.selected.toList.filterMap situation.contract.node?).flatMap fun node =>
    node.effects.map fun slot =>
      { node := node.id, slot := slot.slot, raw := slot.raw.text
        content := situation.judge node slot }

/-! ## Applying -/

/-- Applies an effect to its pool. -/
def Pools.applyEffect (pools : Pools) (effect : Effect) : Pools × EffectOutcome :=
  let before := pools.get effect.stat
  match effect.operator.apply before effect.amount with
  | .ok after => (pools.set effect.stat after, .applied effect.stat before after)
  | .error error => (pools, .failed (.arithmetic error))

section ApplyEffect

variable {pools : Pools} {effect : Effect} {stat : Stat} {before after : Points}
  {error : ArithmeticError}

theorem Pools.applyEffect_of_ok
    (h : effect.operator.apply (pools.get effect.stat) effect.amount = .ok after) :
    pools.applyEffect effect =
      (pools.set effect.stat after, .applied effect.stat (pools.get effect.stat) after) := by
  simp only [applyEffect, h]

theorem Pools.applyEffect_of_error
    (h : effect.operator.apply (pools.get effect.stat) effect.amount = .error error) :
    pools.applyEffect effect = (pools, .failed (.arithmetic error)) := by
  simp only [applyEffect, h]

theorem Pools.applyEffect_eq_applied_iff :
    (pools.applyEffect effect).2 = .applied stat before after ↔
      effect.stat = stat ∧ pools.get effect.stat = before ∧
        effect.operator.apply (pools.get effect.stat) effect.amount = .ok after := by
  cases h : effect.operator.apply (pools.get effect.stat) effect.amount with
  | error other => simp [applyEffect_of_error h]
  | ok other => simp [applyEffect_of_ok h]

theorem Pools.applyEffect_eq_failed_iff :
    (pools.applyEffect effect).2 = .failed (.arithmetic error) ↔
      effect.operator.apply (pools.get effect.stat) effect.amount = .error error := by
  cases h : effect.operator.apply (pools.get effect.stat) effect.amount with
  | error other => simp [applyEffect_of_error h]
  | ok other => simp [applyEffect_of_ok h]

end ApplyEffect

/-- Takes the turn of an effect that adds or subtracts. -/
def Pools.additiveTurn (pools : Pools) (verdict : Verdict) : Pools × Verdict :=
  match verdict with
  | .pending effect =>
    if effect.operator.isAdditive then
      let (next, outcome) := pools.applyEffect effect
      (next, .settled outcome)
    else (pools, verdict)
  | .settled _ => (pools, verdict)

/-- Takes the turn of whatever effect is still pending. -/
def Pools.lastTurn (pools : Pools) (verdict : Verdict) : Pools × EffectOutcome :=
  match verdict with
  | .pending effect => pools.applyEffect effect
  | .settled outcome => (pools, outcome)

/-- Lets every entry take its turn, in order, on the totals that the entries before it left. -/
def takeTurns {α β : Type} (turn : Pools → α → Pools × β) :
    Pools → List (SlotEntry α) → Pools × List (SlotEntry β)
  | pools, [] => (pools, [])
  | pools, entry :: rest =>
    let (next, content) := turn pools entry.content
    let (last, others) := takeTurns turn next rest
    (last, { node := entry.node, slot := entry.slot, raw := entry.raw, content } :: others)

/-- The totals and the trace of a docket: additive effects first, then all others. -/
def settleDocket (docket : List (SlotEntry Verdict)) : Pools × List TraceEntry :=
  let (sums, entries) := takeTurns Pools.additiveTurn .zero docket
  takeTurns Pools.lastTurn sums entries

/-! ## Reporting -/

def Situation.report (situation : Situation) (ratios : PreventionRatios) : PoolReport :=
  let (raw, trace) := settleDocket situation.docket
  let (pools, prevention) := raw.prevent ratios
  { raw, pools, prevention, trace }

/-- Recomputes the pools of a selection and a team from nothing. -/
def Contract.poolReport (contract : Contract) (roster : Roster) (selection : Selection)
    (ratios : PreventionRatios) (extensions : Extensions) : PoolReport :=
  let selected := contract.effective roster selection
  Situation.report { contract, roster, selected, extensions } ratios

end PerkGraph
