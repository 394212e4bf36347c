import PerkGraph.PoolReport

/-!
# The ledger of a pool

The trace of a pool report lists the effects by node and slot, but they were applied in another order:
additions and subtractions before all others. Read in the order of the turns, the applied effects of one pool
are its ledger from nothing to the reported total, and arithmetic fails exactly where an effect that is due
has no result on the total its pool held at its turn (`poolReport_isLedger`). The two passes over the docket
are one run over the trace in that order (`takeTurns_isRun`). What a run does to one pool is a ledger
(`IsRun.isLedger`), and each turn shows what the effect due made of the totals (`IsRun.content_eq_iff`).
-/

namespace PerkGraph

/-! ## Ledgers -/

/-- The effect was applied to the given pool. -/
def appliedTo (stat : Stat) (entry : TraceEntry) : Bool :=
  match entry.content with
  | .applied pool _ _ => decide (pool = stat)
  | _ => false

/-- The operator of the effect was tried, with or without a result. -/
def EffectOutcome.isTurn : EffectOutcome → Bool
  | .applied _ _ _ => true
  | .failed (.arithmetic _) => true
  | _ => false

namespace Contract

/-- The effect that a slot of a node denotes. -/
def effectAt? (contract : Contract) (id : String) (slot : SlotNumber) : Option Effect := do
  let node ← contract.node? id
  let found ← node.effects.find? fun other => other.slot = slot
  found.effect.toOption

/-- The entry stands for an addition or a subtraction. -/
def isAdditiveAt (contract : Contract) (entry : TraceEntry) : Bool :=
  (contract.effectAt? entry.node entry.slot).any fun effect => effect.operator.isAdditive

/-- A trace in the order of the turns: additions and subtractions, then all others. -/
def turnOrder (contract : Contract) (trace : List TraceEntry) : List TraceEntry :=
  trace.filter contract.isAdditiveAt ++ trace.filter fun entry => !contract.isAdditiveAt entry

/-- The entries account, one after the other, for how the total of a pool went from `first` to `last`. -/
def IsLedger (contract : Contract) (stat : Stat) : Points → List TraceEntry → Points → Prop
  | first, [], last => last = first
  | first, entry :: rest, last =>
    ∃ effect after, contract.effectAt? entry.node entry.slot = some effect ∧ effect.stat = stat ∧
      entry.content = .applied stat first after ∧
      effect.operator.apply first effect.amount = .ok after ∧
      IsLedger contract stat after rest last

theorem turnOrder_perm (contract : Contract) (trace : List TraceEntry) :
    (contract.turnOrder trace).Perm trace :=
  List.filter_append_perm _ _

/-- A ledger tells where it ends. -/
theorem IsLedger.last_eq {contract : Contract} {stat : Stat} {first last other : Points}
    {entries : List TraceEntry} (h : contract.IsLedger stat first entries last)
    (h' : contract.IsLedger stat first entries other) : last = other := by
  induction entries generalizing first with
  | nil => exact h.trans h'.symm
  | cons entry rest ih =>
    obtain ⟨_, after, -, -, hcontent, -, hrest⟩ := h
    obtain ⟨_, after', -, -, hcontent', -, hrest'⟩ := h'
    rw [hcontent] at hcontent'
    cases hcontent'
    exact ih hrest hrest'

end Contract

/-! ## Due effects -/

theorem Node.find?_effects {node : Node} {slot : EffectSlot} (h : slot ∈ node.effects) :
    node.effects.find? (fun other => other.slot = slot.slot) = some slot := by
  unfold Node.effects at h ⊢
  cases h1 : node.effect1 <;> cases h2 : node.effect2 <;> simp [h1, h2] at h
  · subst h
    rfl
  · subst h
    rfl
  · rcases h with rfl | rfl <;> rfl

namespace Situation

/-- The slot has an effect whose condition holds. -/
structure IsDue (situation : Situation) (id : String) (slot : SlotNumber) (effect : Effect) :
    Prop where
  effectAt : situation.contract.effectAt? id slot = some effect
  holds : situation.holds effect.condition id = .ok true

/-- A verdict on a slot is right if it is pending exactly for the effect that is due. -/
inductive IsRight (situation : Situation) (id : String) (slot : SlotNumber) : Verdict → Prop where
  | pending {effect : Effect} (due : situation.IsDue id slot effect) :
      IsRight situation id slot (.pending effect)
  | settled {outcome : EffectOutcome} (due : ∀ effect, ¬situation.IsDue id slot effect)
      (content : outcome.isTurn = false) : IsRight situation id slot (.settled outcome)

/-- The slot is one of a node in effect. -/
structure HasSlot (situation : Situation) (node : Node) (slot : EffectSlot) : Prop where
  selected : node.id ∈ situation.selected
  found : situation.contract.node? node.id = some node
  listed : slot ∈ node.effects

/-- The entry of the docket for a slot. -/
def judged (situation : Situation) (node : Node) (slot : EffectSlot) : SlotEntry Verdict where
  node := node.id
  slot := slot.slot
  raw := slot.raw.text
  content := situation.judge node slot

variable {situation : Situation}

theorem HasSlot.effectAt? {node : Node} {slot : EffectSlot} (h : situation.HasSlot node slot) :
    situation.contract.effectAt? node.id slot.slot = slot.effect.toOption := by
  simp [Contract.effectAt?, h.found, Node.find?_effects h.listed]

theorem HasSlot.isRight {node : Node} {slot : EffectSlot} (h : situation.HasSlot node slot) :
    situation.IsRight node.id slot.slot (situation.judge node slot) := by
  have hat := h.effectAt?
  -- only the effect that the text denotes could be due in the slot, and only by its condition
  have hdue {effect other : Effect} (heffect : slot.effect = .ok effect)
      (hother : situation.IsDue node.id slot.slot other) :
      situation.holds effect.condition node.id = .ok true := by
    rw [heffect] at hat
    cases hat.symm.trans hother.effectAt
    exact hother.holds
  rcases situation.judge_cases node slot with ⟨error, heffect, hjudge⟩ |
    ⟨effect, kind, heffect, hholds, hjudge⟩ | ⟨effect, heffect, hholds, hjudge⟩ |
    ⟨effect, heffect, hholds, hjudge⟩ <;> rw [hjudge]
  · rw [heffect] at hat
    exact .settled (fun _ hother => nomatch hat.symm.trans hother.effectAt) rfl
  · exact .settled (fun _ hother => nomatch hholds.symm.trans (hdue heffect hother)) rfl
  · exact .settled (fun _ hother => nomatch hholds.symm.trans (hdue heffect hother)) rfl
  · rw [heffect] at hat
    exact .pending ⟨hat, hholds⟩

@[simp] theorem node_judged (node : Node) (slot : EffectSlot) :
    (situation.judged node slot).node = node.id := by
  rw [judged]

@[simp] theorem slot_judged (node : Node) (slot : EffectSlot) :
    (situation.judged node slot).slot = slot.slot := by
  rw [judged]

theorem content_judged (node : Node) (slot : EffectSlot) :
    (situation.judged node slot).content = situation.judge node slot := by
  rw [judged]

theorem mem_docket {entry : SlotEntry Verdict} :
    entry ∈ situation.docket ↔
      ∃ node slot, situation.HasSlot node slot ∧ entry = situation.judged node slot := by
  simp only [docket, List.mem_flatMap, List.mem_filterMap, List.mem_map]
  constructor
  · rintro ⟨node, ⟨id, hid, hnode⟩, slot, hslot, rfl⟩
    obtain rfl := Contract.id_of_node? hnode
    exact ⟨node, slot, ⟨hid, hnode, hslot⟩, rfl⟩
  · rintro ⟨node, slot, ⟨hid, hnode, hslot⟩, rfl⟩
    exact ⟨node, ⟨node.id, hid, hnode⟩, slot, hslot, rfl⟩

theorem isRight_of_mem_docket {entry : SlotEntry Verdict} (h : entry ∈ situation.docket) :
    situation.IsRight entry.node entry.slot entry.content := by
  obtain ⟨node, slot, hslot, rfl⟩ := mem_docket.1 h
  rw [content_judged]
  exact hslot.isRight

/-! ## Runs -/

/-- A run over trace entries: whoever is due takes its turn on the totals so far, and nothing else
touches them. -/
inductive IsRun (situation : Situation) : Pools → List TraceEntry → Pools → Prop where
  | nil (pools : Pools) : IsRun situation pools [] pools
  | turn {pools last : Pools} {entry : TraceEntry} {rest : List TraceEntry} {effect : Effect}
      (due : situation.IsDue entry.node entry.slot effect)
      (content : entry.content = (pools.applyEffect effect).2)
      (run : IsRun situation (pools.applyEffect effect).1 rest last) :
      IsRun situation pools (entry :: rest) last
  | idle {pools last : Pools} {entry : TraceEntry} {rest : List TraceEntry}
      (due : ∀ effect, ¬situation.IsDue entry.node entry.slot effect)
      (content : entry.content.isTurn = false)
      (run : IsRun situation pools rest last) :
      IsRun situation pools (entry :: rest) last

theorem isRun_append {first last : Pools} {xs ys : List TraceEntry} :
    situation.IsRun first (xs ++ ys) last ↔
      ∃ middle, situation.IsRun first xs middle ∧ situation.IsRun middle ys last := by
  constructor
  · intro h
    induction xs generalizing first with
    | nil => exact ⟨first, .nil first, h⟩
    | cons entry rest ih =>
      cases h with
      | turn due content run =>
        obtain ⟨middle, hrest, hys⟩ := ih run
        exact ⟨middle, .turn due content hrest, hys⟩
      | idle due content run =>
        obtain ⟨middle, hrest, hys⟩ := ih run
        exact ⟨middle, .idle due content hrest, hys⟩
  · rintro ⟨middle, hxs, hys⟩
    induction hxs with
    | nil => exact hys
    | turn due content _ ih => exact .turn due content (ih hys)
    | idle due content _ ih => exact .idle due content (ih hys)

/-- What a run does to one pool is a ledger; the turns of other pools and the failed ones leave it
alone. -/
theorem IsRun.isLedger {first last : Pools} {entries : List TraceEntry}
    (h : situation.IsRun first entries last) (stat : Stat) :
    situation.contract.IsLedger stat (first.get stat) (entries.filter (appliedTo stat))
      (last.get stat) := by
  induction h with
  | nil => rfl
  | @turn pools last entry rest effect due content _ ih =>
    cases hresult : effect.operator.apply (pools.get effect.stat) effect.amount with
    | error error =>
      rw [Pools.applyEffect_of_error hresult] at content ih
      rw [List.filter_cons_of_neg (by simp [appliedTo, content])]
      exact ih
    | ok after =>
      rw [Pools.applyEffect_of_ok hresult] at content ih
      by_cases hstat : effect.stat = stat
      · subst hstat
        rw [List.filter_cons_of_pos (by simp [appliedTo, content])]
        rw [Pools.get_set_self] at ih
        exact ⟨effect, after, due.effectAt, rfl, content, hresult, ih⟩
      · rw [List.filter_cons_of_neg (by simp [appliedTo, content, hstat])]
        rwa [Pools.get_set_ne _ _ (Ne.symm hstat)] at ih
  | @idle pools last entry rest due content _ ih =>
    have hne : ¬appliedTo stat entry = true := by
      unfold appliedTo
      split
      · rename_i hcontent
        rw [hcontent] at content
        cases content
      · exact Bool.false_ne_true
    rw [List.filter_cons_of_neg hne]
    exact ih

/-- The turn of an entry shows what the effect due makes of the totals before it. -/
theorem IsRun.content_eq_iff {first last : Pools} {entry : TraceEntry} {rest : List TraceEntry}
    (h : situation.IsRun first (entry :: rest) last) {outcome : EffectOutcome}
    (hturn : outcome.isTurn = true) :
    entry.content = outcome ↔ ∃ effect, situation.IsDue entry.node entry.slot effect ∧
      (first.applyEffect effect).2 = outcome := by
  cases h with
  | @turn _ _ _ _ effect due content _ =>
    constructor
    · intro heq
      exact ⟨effect, due, content.symm.trans heq⟩
    · rintro ⟨other, hdue, rfl⟩
      cases due.effectAt.symm.trans hdue.effectAt
      exact content
  | idle due content _ =>
    constructor
    · rintro rfl
      rw [content] at hturn
      cases hturn
    · rintro ⟨effect, hdue, -⟩
      exact absurd hdue (due effect)

/-! ## The two passes -/

theorem IsDue.isAdditiveAt {id : String} {slot : SlotNumber} {effect : Effect}
    (h : situation.IsDue id slot effect) (raw : String) (content : EffectOutcome) :
    situation.contract.isAdditiveAt { node := id, slot, raw, content } =
      effect.operator.isAdditive := by
  simp only [Contract.isAdditiveAt, h.effectAt, Option.any_some]

/-- Both passes over a docket are runs, one over the additive entries and one over the others. -/
theorem takeTurns_isRun {docket : List (SlotEntry Verdict)}
    (h : ∀ entry ∈ docket, situation.IsRight entry.node entry.slot entry.content)
    (first second : Pools) :
    let sums := takeTurns Pools.additiveTurn first docket
    let final := takeTurns Pools.lastTurn second sums.2
    situation.IsRun first (final.2.filter situation.contract.isAdditiveAt) sums.1 ∧
      situation.IsRun second
        (final.2.filter fun entry => !situation.contract.isAdditiveAt entry) final.1 := by
  induction docket generalizing first second with
  | nil => exact ⟨.nil first, .nil second⟩
  | cons entry rest ih =>
    obtain ⟨id, slot, raw, verdict⟩ := entry
    have hright := h _ List.mem_cons_self
    replace ih := ih fun entry hentry => h entry (List.mem_cons_of_mem _ hentry)
    intro sums final
    cases hright with
    | @pending effect due =>
      cases hadditive : effect.operator.isAdditive with
      | true =>
        -- the entry takes its turn in the first pass and only there
        obtain ⟨hfirst, hsecond⟩ := ih (first.applyEffect effect).1 second
        simp only [sums, final, takeTurns, Pools.additiveTurn, Pools.lastTurn, List.filter_cons,
          due.isAdditiveAt, hadditive, if_true, Bool.not_true, Bool.false_eq_true, if_false]
        exact ⟨.turn due rfl hfirst, hsecond⟩
      | false =>
        obtain ⟨hfirst, hsecond⟩ := ih first (second.applyEffect effect).1
        simp only [sums, final, takeTurns, Pools.additiveTurn, Pools.lastTurn, List.filter_cons,
          due.isAdditiveAt, hadditive, if_true, Bool.not_false, Bool.false_eq_true, if_false]
        exact ⟨hfirst, .turn due rfl hsecond⟩
    | @settled outcome due content =>
      obtain ⟨hfirst, hsecond⟩ := ih first second
      simp only [sums, final, takeTurns, Pools.additiveTurn, Pools.lastTurn, List.filter_cons]
      -- nothing is due in the slot, so the entry is idle in whichever pass lists it
      cases situation.contract.isAdditiveAt { node := id, slot, raw, content := outcome } with
      | true => exact ⟨.idle due content hfirst, hsecond⟩
      | false => exact ⟨hfirst, .idle due content hsecond⟩

/-- A report is one run over its trace in the order of the turns. -/
theorem report_isRun (situation : Situation) (ratios : PreventionRatios) :
    situation.IsRun .zero (situation.contract.turnOrder (situation.report ratios).trace)
      (situation.report ratios).raw := by
  have hright : ∀ entry ∈ situation.docket,
      situation.IsRight entry.node entry.slot entry.content :=
    fun entry h => isRight_of_mem_docket h
  obtain ⟨hfirst, hlast⟩ := takeTurns_isRun hright .zero
    (takeTurns Pools.additiveTurn .zero situation.docket).1
  exact isRun_append.2 ⟨_, hfirst, hlast⟩

end Situation

/-- **Pool accounting**: in the order of the turns the applied effects of a pool lead from nothing to its
reported total, each by its own operator from the total before it. An effect whose condition holds is
applied to what its pool held at its place in that order, or it fails there for want of a result. -/
theorem Contract.poolReport_isLedger (contract : Contract) (roster : Roster)
    (selection : Selection) (ratios : PreventionRatios) (extensions : Extensions) :
    let report := contract.poolReport roster selection ratios extensions
    let situation : Situation :=
      { contract, roster, selected := contract.effective roster selection, extensions }
    let turns := contract.turnOrder report.trace
    (∀ stat, contract.IsLedger stat .zero (turns.filter (appliedTo stat)) (report.raw.get stat)) ∧
      ∀ earlier entry later, turns = earlier ++ entry :: later →
        (∀ stat before after, entry.content = .applied stat before after ↔
          ∃ effect, contract.effectAt? entry.node entry.slot = some effect ∧
            situation.holds effect.condition entry.node = .ok true ∧ effect.stat = stat ∧
            contract.IsLedger stat .zero (earlier.filter (appliedTo stat)) before ∧
            effect.operator.apply before effect.amount = .ok after) ∧
        ∀ error, entry.content = .failed (.arithmetic error) ↔
          ∃ effect held, contract.effectAt? entry.node entry.slot = some effect ∧
            situation.holds effect.condition entry.node = .ok true ∧
            contract.IsLedger effect.stat .zero (earlier.filter (appliedTo effect.stat)) held ∧
            effect.operator.apply held effect.amount = .error error := by
  intro report situation turns
  have hrun : situation.IsRun .zero turns report.raw := situation.report_isRun ratios
  refine ⟨fun stat => ?_, fun earlier entry later hturns => ?_⟩
  · have hledger := hrun.isLedger stat
    rwa [Pools.get_zero] at hledger
  · rw [hturns] at hrun
    obtain ⟨middle, hearlier, hrest⟩ := Situation.isRun_append.1 hrun
    -- what a pool held when the entry had its turn
    have hheld (stat : Stat) (held : Points) :
        contract.IsLedger stat .zero (earlier.filter (appliedTo stat)) held ↔
          middle.get stat = held := by
      have hledger := hearlier.isLedger stat
      rw [Pools.get_zero] at hledger
      exact ⟨hledger.last_eq, fun heq => heq ▸ hledger⟩
    constructor
    · intro stat before after
      rw [hrest.content_eq_iff rfl]
      constructor
      · rintro ⟨effect, hdue, happlied⟩
        obtain ⟨rfl, rfl, hok⟩ := Pools.applyEffect_eq_applied_iff.1 happlied
        exact ⟨effect, hdue.effectAt, hdue.holds, rfl, (hheld _ _).2 rfl, hok⟩
      · rintro ⟨effect, hat, hholds, rfl, hledger, hok⟩
        obtain rfl := (hheld _ _).1 hledger
        exact ⟨effect, ⟨hat, hholds⟩, Pools.applyEffect_eq_applied_iff.2 ⟨rfl, rfl, hok⟩⟩
    · intro error
      rw [hrest.content_eq_iff rfl]
      constructor
      · rintro ⟨effect, hdue, hfailed⟩
        exact ⟨effect, middle.get effect.stat, hdue.effectAt, hdue.holds, (hheld _ _).2 rfl,
          Pools.applyEffect_eq_failed_iff.1 hfailed⟩
      · rintro ⟨effect, held, hat, hholds, hledger, herror⟩
        obtain rfl := (hheld _ _).1 hledger
        exact ⟨effect, ⟨hat, hholds⟩, Pools.applyEffect_eq_failed_iff.2 herror⟩

end PerkGraph
