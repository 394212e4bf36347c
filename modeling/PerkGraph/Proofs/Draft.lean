import PerkGraph.PoolReport

/-!
# A trace written in place

A report can also be written by places. Every slot is entered once, and an effect that awaits its turn is
entered as an unmet condition and noted down with the place of its entry; then the effects noted down are
applied, additions and subtractions first, and each outcome is written over the entry at its place. No turn
misses its entry, and what comes of it is the report (`settle?_ofDocket`). Both passes over the notes keep
step with a pass over the docket (`foldlM_overwrite?`): while the turns of a suffix are taken, the entries
before it have their final outcomes of that pass and those of the suffix still their old ones.
-/

namespace PerkGraph

/-- The entry with other content. -/
def SlotEntry.withContent {α β : Type} (entry : SlotEntry α) (content : β) : SlotEntry β :=
  { node := entry.node, slot := entry.slot, raw := entry.raw, content }

@[simp] theorem SlotEntry.withContent_withContent {α β γ : Type} (entry : SlotEntry α) (first : β)
    (second : γ) : (entry.withContent first).withContent second = entry.withContent second := rfl

@[simp] theorem SlotEntry.node_withContent {α β : Type} (entry : SlotEntry α) (content : β) :
    (entry.withContent content).node = entry.node := rfl

@[simp] theorem SlotEntry.slot_withContent {α β : Type} (entry : SlotEntry α) (content : β) :
    (entry.withContent content).slot = entry.slot := rfl

@[simp] theorem SlotEntry.content_withContent {α β : Type} (entry : SlotEntry α) (content : β) :
    (entry.withContent content).content = content := rfl

theorem takeTurns_cons {α β : Type} (turn : Pools → α → Pools × β) (pools : Pools)
    (entry : SlotEntry α) (rest : List (SlotEntry α)) :
    takeTurns turn pools (entry :: rest) =
      let next := turn pools entry.content
      let others := takeTurns turn next.1 rest
      (others.1, entry.withContent next.2 :: others.2) := rfl

namespace Verdict

/-- The effect that awaits its turn. -/
def effect? : Verdict → Option Effect
  | settled _ => none
  | pending effect => some effect

/-- What a trace says before the turn is taken. -/
def placeholder : Verdict → EffectOutcome
  | settled outcome => outcome
  | pending _ => .conditionNotMet

end Verdict

/-! ## Drafts -/

/-- The entries written so far, and the effects noted down, each with the place of its entry. -/
structure Draft where
  trace : List TraceEntry := []
  pending : List (Nat × Effect) := []

namespace Draft

/-- Enters a slot, and notes its effect down if it awaits its turn. -/
def enter (draft : Draft) (entry : SlotEntry Verdict) : Draft where
  trace := draft.trace ++ [entry.withContent entry.content.placeholder]
  pending := draft.pending ++ (entry.content.effect?.map fun effect => (draft.trace.length, effect)).toList

def ofDocket (docket : List (SlotEntry Verdict)) : Draft :=
  docket.foldl enter {}

/-- The effects noted down in the order of their turns. -/
def turns (draft : Draft) : List (Nat × Effect) :=
  (draft.pending.filter fun turn => turn.2.operator.isAdditive) ++
    draft.pending.filter fun turn => !turn.2.operator.isAdditive

/-- Applies an effect and writes the outcome over the entry at its place. There is no result if there is no
such place. -/
def overwrite? (state : Pools × List TraceEntry) (turn : Nat × Effect) :
    Option (Pools × List TraceEntry) :=
  state.2[turn.1]?.map fun entry =>
    let (next, outcome) := state.1.applyEffect turn.2
    (next, state.2.set turn.1 (entry.withContent outcome))

/-- The totals and the trace once every turn is taken. -/
def settle? (draft : Draft) : Option (Pools × List TraceEntry) :=
  draft.turns.foldlM overwrite? (.zero, draft.trace)

/-! ## What is noted down -/

/-- The effects of a docket that await their turn, each with its place counted from `start`. -/
def pendingFrom (start : Nat) (docket : List (SlotEntry Verdict)) : List (Nat × Effect) :=
  (docket.zipIdx start).filterMap fun entry => entry.1.content.effect?.map fun effect =>
    (entry.2, effect)

theorem pendingFrom_cons (start : Nat) (entry : SlotEntry Verdict) (rest : List (SlotEntry Verdict)) :
    pendingFrom start (entry :: rest) =
      (entry.content.effect?.map fun effect => (start, effect)).toList ++
        pendingFrom (start + 1) rest := by
  unfold pendingFrom
  rw [List.zipIdx_cons, List.filterMap_cons]
  cases entry.content.effect? <;> rfl

theorem mem_pendingFrom_zero {docket : List (SlotEntry Verdict)} {place : Nat} {effect : Effect} :
    (place, effect) ∈ pendingFrom 0 docket ↔
      ∃ entry, docket[place]? = some entry ∧ entry.content.effect? = some effect := by
  simp only [pendingFrom, List.mem_filterMap, List.mem_zipIdx_iff_getElem?, Option.map_eq_some_iff,
    Prod.mk.injEq]
  constructor
  · rintro ⟨⟨entry, place⟩, hentry, effect, heffect, rfl, rfl⟩
    exact ⟨entry, hentry, heffect⟩
  · rintro ⟨entry, hentry, heffect⟩
    exact ⟨(entry, place), hentry, effect, heffect, rfl, rfl⟩

theorem foldl_enter (docket : List (SlotEntry Verdict)) (draft : Draft) :
    docket.foldl enter draft =
      { trace := draft.trace ++ docket.map fun entry => entry.withContent entry.content.placeholder
        pending := draft.pending ++ pendingFrom draft.trace.length docket } := by
  induction docket generalizing draft with
  | nil => simp [pendingFrom]
  | cons entry rest ih =>
    rw [List.foldl_cons, ih, pendingFrom_cons]
    simp [enter]

theorem ofDocket_eq (docket : List (SlotEntry Verdict)) :
    ofDocket docket =
      { trace := docket.map fun entry => entry.withContent entry.content.placeholder
        pending := pendingFrom 0 docket } := by
  rw [ofDocket, foldl_enter]
  simp only [List.nil_append, List.length_nil]

/-- After the additive turns the others are still noted down, at the same places. -/
theorem pendingFrom_takeTurns (start : Nat) (docket : List (SlotEntry Verdict)) (pools : Pools) :
    pendingFrom start (takeTurns Pools.additiveTurn pools docket).2 =
      (pendingFrom start docket).filter fun turn => !turn.2.operator.isAdditive := by
  induction docket generalizing start pools with
  | nil => rfl
  | cons entry rest ih =>
    simp only [takeTurns_cons, pendingFrom_cons, List.filter_append, ih,
      SlotEntry.content_withContent]
    congr 1
    cases entry.content with
    | settled outcome => rfl
    | pending effect =>
      cases hadditive : effect.operator.isAdditive <;>
        simp [Pools.additiveTurn, Verdict.effect?, hadditive]

/-! ## Passes keep step -/

/-- The turn of a verdict if its effect passes a test. -/
def turnIf (due : Effect → Bool) (pools : Pools) : Verdict → Pools × EffectOutcome
  | .settled outcome => (pools, outcome)
  | .pending effect => if due effect then pools.applyEffect effect else (pools, .conditionNotMet)

theorem overwrite?_length (pools : Pools) (done rest : List TraceEntry) (entry : TraceEntry)
    (effect : Effect) :
    overwrite? (pools, done ++ entry :: rest) (done.length, effect) =
      some ((pools.applyEffect effect).1,
        done ++ entry.withContent (pools.applyEffect effect).2 :: rest) := by
  simp [overwrite?]

section KeepStep

variable {α : Type} {turn : Pools → Verdict → Pools × α} {shown : α → EffectOutcome}
  {due : Effect → Bool}

theorem foldlM_overwrite?
    (hturn : ∀ pools verdict, Prod.map id shown (turn pools verdict) = turnIf due pools verdict)
    (docket : List (SlotEntry Verdict)) (pools : Pools) (done : List TraceEntry) :
    ((pendingFrom done.length docket).filter fun noted => due noted.2).foldlM overwrite?
        (pools, done ++ docket.map fun entry => entry.withContent entry.content.placeholder) =
      some ((takeTurns turn pools docket).1, done ++ (takeTurns turn pools docket).2.map
        fun entry => entry.withContent (shown entry.content)) := by
  induction docket generalizing pools done with
  | nil => rfl
  | cons entry rest ih =>
    have hfst := congrArg Prod.fst (hturn pools entry.content)
    have hsnd := congrArg Prod.snd (hturn pools entry.content)
    simp only [Prod.map_fst, Prod.map_snd, id_eq] at hfst hsnd
    -- once its turn is over, the entry is one of those that are done
    have hrest := ih (turnIf due pools entry.content).1
      (done ++ [entry.withContent (turnIf due pools entry.content).2])
    rw [List.length_append, List.length_singleton, List.append_assoc, List.append_assoc,
      List.singleton_append, List.singleton_append] at hrest
    simp only [takeTurns_cons, pendingFrom_cons, List.filter_append, List.foldlM_append,
      List.map_cons, SlotEntry.withContent_withContent, SlotEntry.content_withContent, hfst, hsnd]
    cases hverdict : entry.content with
    | settled outcome =>
      rw [hverdict] at hrest
      exact hrest
    | pending effect =>
      rw [hverdict] at hrest
      cases hdue : due effect with
      | true =>
        simp only [turnIf, hdue, if_true] at hrest ⊢
        simp [Verdict.effect?, hdue, overwrite?_length, hrest]
      | false =>
        simp only [turnIf, hdue, Bool.false_eq_true, if_false] at hrest ⊢
        simpa [Verdict.effect?, Verdict.placeholder, hdue] using hrest

end KeepStep

theorem additiveTurn_eq_turnIf (pools : Pools) (verdict : Verdict) :
    Prod.map id Verdict.placeholder (pools.additiveTurn verdict) =
      turnIf (fun effect => effect.operator.isAdditive) pools verdict := by
  cases verdict with
  | settled outcome => rfl
  | pending effect => cases hadditive : effect.operator.isAdditive <;>
      simp [Pools.additiveTurn, turnIf, Verdict.placeholder, hadditive]

theorem lastTurn_eq_turnIf (pools : Pools) (verdict : Verdict) :
    Prod.map id id (pools.lastTurn verdict) = turnIf (fun _ => true) pools verdict := by
  cases verdict <;> rfl

/-- **Every turn finds its entry**, and writing by places comes to what taking turns in place comes to. -/
theorem settle?_ofDocket (docket : List (SlotEntry Verdict)) :
    (ofDocket docket).settle? = some (settleDocket docket) := by
  let sums := takeTurns Pools.additiveTurn .zero docket
  have hsums := foldlM_overwrite? additiveTurn_eq_turnIf docket .zero []
  have hlast := foldlM_overwrite? lastTurn_eq_turnIf sums.2 sums.1 []
  simp only [List.length_nil, List.nil_append] at hsums hlast
  have hsame (trace : List TraceEntry) :
      (trace.map fun entry => entry.withContent (id entry.content)) = trace := List.map_id trace
  rw [pendingFrom_takeTurns, List.filter_eq_self.2 fun _ _ => rfl, hsame] at hlast
  rw [ofDocket_eq, settle?, turns, List.foldlM_append, hsums]
  exact hlast

end Draft

end PerkGraph
