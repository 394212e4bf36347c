import Mathlib.Algebra.Order.BigOperators.GroupWithZero.List
import Mathlib.Algebra.Order.Ring.Int
import Mathlib.Algebra.Order.Ring.Nat
import PerkGraph.Proofs.TraceRecord

/-!
# Exact totals

Arithmetic that overflows is skipped, so in general a total depends on the order in which effects are applied.
It does not where the amounts are small enough: then no turn of the pool fails, the first pass leaves the plain sum
of what is added and taken away, and if all other effects multiply, the total is that sum times their amounts
(`Contract.poolReport_exact`). What carries this is a bound that each turn hands on to the turns after it: the
size of what the pool holds, with the sizes of all amounts still to come, is in range
(`Effect.exists_applyAll_of_additive`, `Effect.exists_applyAll_of_multiply`). One pool of a run is a fold over the
effects due on it, however they are interleaved with those of other pools (`Situation.IsRun.get_eq`), and the
effects due in a trace are those of the nodes in effect whose conditions hold (`Situation.dueIn_settleDocket`).
-/

namespace PerkGraph

/-! ## Effects on one pool -/

/-- The greatest number of points. -/
def Points.greatest : Nat := 0x7fffffffffffffff

/-- An exact result in range is a result. -/
theorem Operator.exists_apply_eq_ok {operator : Operator} (value amount : Points)
    (hdivide : operator ≠ .divide)
    (hrange : (operator.exact value.val amount.val).natAbs ≤ Points.greatest) :
    ∃ after, operator.apply value amount = .ok after ∧
      after.val = operator.exact value.val amount.val := by
  unfold Points.greatest at hrange
  let after : Points :=
    { val := operator.exact value.val amount.val, lower := by omega, upper := by omega }
  exact ⟨after, apply_eq_ok_iff.2 ⟨fun h => hdivide h.1, rfl⟩, rfl⟩

theorem Pools.get_applyEffect_ne {pools : Pools} {effect : Effect} {stat : Stat}
    (h : effect.stat ≠ stat) : (pools.applyEffect effect).1.get stat = pools.get stat := by
  cases hresult : effect.operator.apply (pools.get effect.stat) effect.amount with
  | error error => rw [applyEffect_of_error hresult]
  | ok after =>
    rw [applyEffect_of_ok hresult]
    exact get_set_ne _ _ (Ne.symm h)

namespace Effect

/-- The size of the amount. -/
def magnitude (effect : Effect) : Nat :=
  effect.amount.val.natAbs

/-- The amount, negative if it is taken away. -/
def signed (effect : Effect) : Int :=
  if effect.operator = .subtract then -effect.amount.val else effect.amount.val

/-- Applies effects to what their pool holds, one after the other. -/
def applyAll (held : Points) (effects : List Effect) : Except ArithmeticError Points :=
  effects.foldlM (fun held effect => effect.operator.apply held effect.amount) held

variable {effect : Effect} {effects : List Effect} {held : Points}

theorem natAbs_signed (effect : Effect) : effect.signed.natAbs = effect.magnitude := by
  unfold signed magnitude
  split
  · exact Int.natAbs_neg _
  · rfl

theorem exact_eq_add_signed (h : effect.operator.isAdditive = true) (value : Int) :
    effect.operator.exact value effect.amount.val = value + effect.signed := by
  unfold signed
  cases hoperator : effect.operator with
  | add => rfl
  | subtract => exact Int.sub_eq_add_neg
  | multiply => simp [hoperator, Operator.isAdditive] at h
  | divide => simp [hoperator, Operator.isAdditive] at h

theorem applyAll_cons_eq_ok_iff {total : Points} :
    applyAll held (effect :: effects) = .ok total ↔
      ∃ after, effect.operator.apply held effect.amount = .ok after ∧
        applyAll after effects = .ok total := by
  unfold applyAll
  rw [List.foldlM_cons]
  cases effect.operator.apply held effect.amount with
  | error error => simp [bind, Except.bind]
  | ok after => simp [bind, Except.bind]

/-- Sums are exact while what is held and all amounts to come are in range together. -/
theorem exists_applyAll_of_additive (hadditive : ∀ effect ∈ effects, effect.operator.isAdditive = true)
    (hrange : held.val.natAbs + (effects.map magnitude).sum ≤ Points.greatest) :
    ∃ total, applyAll held effects = .ok total ∧
      total.val = held.val + (effects.map signed).sum := by
  induction effects generalizing held with
  | nil => exact ⟨held, rfl, by simp⟩
  | cons effect rest ih =>
    rw [List.map_cons, List.sum_cons] at hrange ⊢
    obtain ⟨hhead, hrest⟩ := List.forall_mem_cons.1 hadditive
    have hexact := exact_eq_add_signed hhead held.val
    have hsize : (held.val + effect.signed).natAbs ≤ held.val.natAbs + effect.magnitude := by
      rw [← natAbs_signed]
      exact Int.natAbs_add_le _ _
    have hdivide : effect.operator ≠ .divide := by
      intro hoperator
      simp [hoperator, Operator.isAdditive] at hhead
    obtain ⟨after, hafter, hval⟩ :=
      Operator.exists_apply_eq_ok held effect.amount hdivide (by omega)
    have hnext : after.val.natAbs + (rest.map magnitude).sum ≤ Points.greatest := by omega
    obtain ⟨total, htotal, hsum⟩ := ih hrest hnext
    refine ⟨total, applyAll_cons_eq_ok_iff.2 ⟨after, hafter, htotal⟩, ?_⟩
    omega

theorem exists_applyAll_zero (hadditive : ∀ effect ∈ effects, effect.operator.isAdditive = true)
    (hrange : (effects.map magnitude).sum ≤ Points.greatest) :
    ∃ total, applyAll .zero effects = .ok total ∧ total.val = (effects.map signed).sum := by
  have hzero : Points.zero.val.natAbs + (effects.map magnitude).sum ≤ Points.greatest := by
    simpa using hrange
  obtain ⟨total, htotal, hsum⟩ := exists_applyAll_of_additive hadditive hzero
  exact ⟨total, htotal, by simpa using hsum⟩

/-- Products are exact while what is held times all amounts to come is in range. A factor of zero counts as one
in the bound, since the factors before it are applied to the whole number all the same. -/
theorem exists_applyAll_of_multiply (hmultiply : ∀ effect ∈ effects, effect.operator = .multiply)
    (hrange : held.val.natAbs * (effects.map fun effect => max 1 effect.magnitude).prod ≤
      Points.greatest) :
    ∃ total, applyAll held effects = .ok total ∧
      total.val = held.val * (effects.map fun effect => effect.amount.val).prod := by
  induction effects generalizing held with
  | nil => exact ⟨held, rfl, by simp⟩
  | cons effect rest ih =>
    rw [List.map_cons, List.prod_cons] at hrange ⊢
    obtain ⟨hhead, hrest⟩ := List.forall_mem_cons.1 hmultiply
    generalize hfactors : (rest.map fun effect => max 1 effect.magnitude).prod = factors at hrange ih
    have hpos : 0 < factors := by
      rw [← hfactors]
      refine List.prod_pos fun factor hfactor => ?_
      obtain ⟨other, -, rfl⟩ := List.mem_map.1 hfactor
      exact Nat.lt_of_lt_of_le Nat.zero_lt_one (Nat.le_max_left _ _)
    have hexact : effect.operator.exact held.val effect.amount.val = held.val * effect.amount.val := by
      rw [hhead]
      rfl
    -- what the turn leaves is in range with the factors still to come, and so also by itself
    have hnext : (held.val * effect.amount.val).natAbs * factors ≤ Points.greatest :=
      calc (held.val * effect.amount.val).natAbs * factors
          = held.val.natAbs * (effect.magnitude * factors) := by
            rw [Int.natAbs_mul, Nat.mul_assoc]
            rfl
        _ ≤ held.val.natAbs * (max 1 effect.magnitude * factors) :=
          Nat.mul_le_mul_left _ (Nat.mul_le_mul_right _ (Nat.le_max_right _ _))
        _ ≤ Points.greatest := hrange
    obtain ⟨after, hafter, hval⟩ := Operator.exists_apply_eq_ok held effect.amount (by simp [hhead])
      (hexact ▸ Nat.le_trans (Nat.le_mul_of_pos_right _ hpos) hnext)
    rw [hexact] at hval
    rw [← hval] at hnext
    obtain ⟨total, htotal, hproduct⟩ := ih hrest hnext
    refine ⟨total, applyAll_cons_eq_ok_iff.2 ⟨after, hafter, htotal⟩, ?_⟩
    rw [hproduct, hval, Int.mul_assoc]

end Effect

/-! ## What is due -/

namespace Situation

/-- The condition of the effect holds for the node. -/
def isMet (situation : Situation) (effect : Effect) (id : String) : Bool :=
  match situation.holds effect.condition id with
  | .ok met => met
  | .error _ => false

/-- The effect due in a slot. -/
def due? (situation : Situation) (id : String) (slot : SlotNumber) : Option Effect :=
  (situation.contract.effectAt? id slot).filter fun effect => situation.isMet effect id

/-- The effects due in the slots of some entries. -/
def dueIn {α : Type} (situation : Situation) (entries : List (SlotEntry α)) : List Effect :=
  entries.filterMap fun entry => situation.due? entry.node entry.slot

/-- The effects of the nodes in effect whose conditions hold. -/
def satisfied (situation : Situation) : List Effect :=
  (situation.selected.toList.filterMap situation.contract.node?).flatMap fun node =>
    node.effects.filterMap fun slot =>
      slot.effect.toOption.filter fun effect => situation.isMet effect node.id

variable {situation : Situation}

theorem isMet_iff {effect : Effect} {id : String} :
    situation.isMet effect id = true ↔ situation.holds effect.condition id = .ok true := by
  unfold isMet
  cases situation.holds effect.condition id <;> simp

theorem due?_eq_some_iff {id : String} {slot : SlotNumber} {effect : Effect} :
    situation.due? id slot = some effect ↔ situation.IsDue id slot effect := by
  rw [due?, Option.filter_eq_some_iff, isMet_iff]
  exact ⟨fun h => ⟨h.1, h.2⟩, fun h => ⟨h.effectAt, h.holds⟩⟩

theorem mem_dueIn {entries : List TraceEntry} {effect : Effect} :
    effect ∈ situation.dueIn entries ↔
      ∃ entry ∈ entries, situation.IsDue entry.node entry.slot effect := by
  simp only [dueIn, List.mem_filterMap, due?_eq_some_iff]

theorem dueIn_docket (situation : Situation) :
    situation.dueIn situation.docket = situation.satisfied := by
  unfold dueIn satisfied docket
  rw [List.filterMap_flatMap]
  refine List.flatMap_congr fun node hnode => ?_
  obtain ⟨id, hid, hfound⟩ := List.mem_filterMap.1 hnode
  obtain rfl := Contract.id_of_node? hfound
  rw [List.filterMap_map]
  refine List.filterMap_congr fun slot hslot => ?_
  have hat := HasSlot.effectAt? ⟨hid, hfound, hslot⟩
  simp only [Function.comp_apply, due?, hat]

/-- The effects due in a trace are those of the nodes in effect whose conditions hold. -/
theorem dueIn_settleDocket (situation : Situation) :
    situation.dueIn (settleDocket situation.docket).2 = situation.satisfied := by
  have hkeys := congrArg (List.filterMap fun key => situation.due? key.1 key.2)
    (map_key_settleDocket situation.docket)
  rw [List.filterMap_map, List.filterMap_map] at hkeys
  exact hkeys.trans situation.dueIn_docket

/-- A test of entries that is one of the effects due in them. -/
theorem dueIn_filter {entries : List TraceEntry} {p : TraceEntry → Bool} {q : Effect → Bool}
    (h : ∀ entry effect, situation.IsDue entry.node entry.slot effect → p entry = q effect) :
    situation.dueIn (entries.filter p) = (situation.dueIn entries).filter q := by
  unfold dueIn
  rw [List.filterMap_filter, List.filter_filterMap]
  refine List.filterMap_congr fun entry _ => ?_
  cases hdue : situation.due? entry.node entry.slot with
  | none => simp
  | some effect => rw [h entry effect (due?_eq_some_iff.1 hdue), Option.filter_some]

theorem dueIn_filter_isAdditiveAt (entries : List TraceEntry) :
    situation.dueIn (entries.filter situation.contract.isAdditiveAt) =
      (situation.dueIn entries).filter fun effect => effect.operator.isAdditive :=
  dueIn_filter fun entry _ due => due.isAdditiveAt entry.raw entry.content

theorem dueIn_filter_not_isAdditiveAt (entries : List TraceEntry) :
    situation.dueIn (entries.filter fun entry => !situation.contract.isAdditiveAt entry) =
      (situation.dueIn entries).filter fun effect => !effect.operator.isAdditive :=
  dueIn_filter fun entry _ due => congrArg (!·) (due.isAdditiveAt entry.raw entry.content)

/-! ## One pool of a run -/

/-- What a run does to one pool is a fold over the effects due on it. If that has a result, it is the total of the
pool, and all of these effects were applied. -/
theorem IsRun.get_eq {first last : Pools} {entries : List TraceEntry}
    (h : situation.IsRun first entries last) {stat : Stat} {total : Points}
    (htotal : Effect.applyAll (first.get stat)
      ((situation.dueIn entries).filter fun effect => effect.stat = stat) = .ok total) :
    last.get stat = total ∧
      ∀ entry ∈ entries, ∀ effect, situation.IsDue entry.node entry.slot effect →
        effect.stat = stat → ∃ before after, entry.content = .applied stat before after := by
  induction h with
  | nil pools =>
    cases htotal
    exact ⟨rfl, fun entry hentry => nomatch hentry⟩
  | @turn pools last entry rest effect due content _ ih =>
    have hcons : situation.dueIn (entry :: rest) = effect :: situation.dueIn rest :=
      List.filterMap_cons_some (due?_eq_some_iff.2 due)
    rw [hcons] at htotal
    by_cases hstat : effect.stat = stat
    · subst hstat
      rw [List.filter_cons_of_pos (by simp), Effect.applyAll_cons_eq_ok_iff] at htotal
      obtain ⟨after, hafter, hrest⟩ := htotal
      rw [Pools.applyEffect_of_ok hafter] at content ih
      rw [Pools.get_set_self] at ih
      obtain ⟨hlast, happlied⟩ := ih hrest
      exact ⟨hlast, List.forall_mem_cons.2 ⟨fun _ _ _ => ⟨_, after, content⟩, happlied⟩⟩
    · -- the turn is one of another pool
      rw [List.filter_cons_of_neg (by simpa using hstat)] at htotal
      rw [Pools.get_applyEffect_ne hstat] at ih
      obtain ⟨hlast, happlied⟩ := ih htotal
      refine ⟨hlast, List.forall_mem_cons.2 ⟨fun other hother heq => ?_, happlied⟩⟩
      cases due.effectAt.symm.trans hother.effectAt
      exact absurd heq hstat
  | @idle pools last entry rest due content _ ih =>
    have hcons : situation.dueIn (entry :: rest) = situation.dueIn rest := by
      refine List.filterMap_cons_none (Option.eq_none_iff_forall_ne_some.2 fun effect heffect => ?_)
      exact due effect (due?_eq_some_iff.1 heffect)
    rw [hcons] at htotal
    obtain ⟨hlast, happlied⟩ := ih htotal
    exact ⟨hlast, List.forall_mem_cons.2 ⟨fun effect heffect => absurd heffect (due effect), happlied⟩⟩

/-- A run leaves a pool alone if nothing in it is due on that pool. -/
theorem IsRun.get_eq_self {first last : Pools} {entries : List TraceEntry}
    (h : situation.IsRun first entries last) {stat : Stat}
    (hnone : ∀ entry ∈ entries, ∀ effect, situation.IsDue entry.node entry.slot effect →
      effect.stat ≠ stat) : last.get stat = first.get stat := by
  have hnothing : ((situation.dueIn entries).filter fun effect => effect.stat = stat) = [] := by
    refine List.filter_eq_nil_iff.2 fun effect heffect => ?_
    obtain ⟨entry, hentry, due⟩ := mem_dueIn.1 heffect
    simpa using hnone entry hentry effect due
  exact (h.get_eq (by rw [hnothing]; rfl)).1

end Situation

/-! ## The main statement -/

namespace Contract

/-- **Totals are exact while the amounts are in range.** If what is added to a pool and taken from it amounts to no
more than the greatest number of points, then all of it is applied, and the pool holds the plain sum of it from the
end of the first pass until the second one gets to an effect on that pool. If there is none, the sum is the total.
If all of them multiply, and the sum times the factors is in range too, with a factor of zero counted as one, then
all of them are applied as well, and the total is the product. -/
theorem poolReport_exact (contract : Contract) (roster : Roster) (selection : Selection)
    (ratios : PreventionRatios) (extensions : Extensions) (stat : Stat) :
    let report := contract.poolReport roster selection ratios extensions
    let situation : Situation :=
      { contract, roster, selected := contract.effective roster selection, extensions }
    let additions := report.trace.filter contract.isAdditiveAt
    let others := report.trace.filter fun entry => !contract.isAdditiveAt entry
    let effects := situation.satisfied.filter fun effect => effect.stat = stat
    let terms := effects.filter fun effect => effect.operator.isAdditive
    let factors := effects.filter fun effect => !effect.operator.isAdditive
    let sum := (terms.map Effect.signed).sum
    (terms.map Effect.magnitude).sum ≤ Points.greatest →
      (∀ entry ∈ report.trace, ∀ effect, situation.IsDue entry.node entry.slot effect →
        effect.stat = stat → effect.operator.isAdditive = true →
        ∃ before after, entry.content = .applied stat before after) ∧
      (∀ earlier later, others = earlier ++ later →
        (∀ entry ∈ earlier, ∀ effect, situation.IsDue entry.node entry.slot effect →
          effect.stat ≠ stat) →
        ∃ pools, situation.IsRun .zero (additions ++ earlier) pools ∧
          situation.IsRun pools later report.raw ∧ (pools.get stat).val = sum) ∧
      (factors = [] → (report.raw.get stat).val = sum) ∧
      ((∀ effect ∈ factors, effect.operator = .multiply) →
        sum.natAbs * (factors.map fun effect => max 1 effect.magnitude).prod ≤ Points.greatest →
        (report.raw.get stat).val = sum * (factors.map fun effect => effect.amount.val).prod ∧
          ∀ entry ∈ report.trace, ∀ effect, situation.IsDue entry.node entry.slot effect →
            effect.stat = stat → ∃ before after, entry.content = .applied stat before after) := by
  intro report situation additions others effects terms factors sum hrange
  have hdue : situation.dueIn report.trace = situation.satisfied := situation.dueIn_settleDocket
  have hterms : ((situation.dueIn additions).filter fun effect => effect.stat = stat) = terms := by
    rw [Situation.dueIn_filter_isAdditiveAt, hdue]
    exact List.filter_comm _ _ _
  have hfactors : ((situation.dueIn others).filter fun effect => effect.stat = stat) = factors := by
    rw [Situation.dueIn_filter_not_isAdditiveAt, hdue]
    exact List.filter_comm _ _ _
  obtain ⟨sums, hfirst, hlast⟩ : ∃ sums, situation.IsRun .zero additions sums ∧
      situation.IsRun sums others report.raw :=
    Situation.isRun_append.1 (situation.report_isRun ratios)
  have hadditive : ∀ effect ∈ terms, effect.operator.isAdditive = true :=
    fun effect heffect => (List.mem_filter.1 heffect).2
  obtain ⟨held, hheld, (hval : held.val = sum)⟩ := Effect.exists_applyAll_zero hadditive hrange
  -- the first pass leaves the sum in the pool, and the second one starts from there
  obtain ⟨rfl, happlied⟩ := hfirst.get_eq (by rwa [Pools.get_zero, hterms])
  refine ⟨?_, ?_, ?_, ?_⟩
  · intro entry hentry effect due hstat hadditive
    have hin : entry ∈ additions :=
      List.mem_filter.2 ⟨hentry, (due.isAdditiveAt entry.raw entry.content).trans hadditive⟩
    exact happlied entry hin effect due hstat
  · intro earlier later hothers hnone
    rw [hothers] at hlast
    obtain ⟨pools, hearlier, hlater⟩ := Situation.isRun_append.1 hlast
    have hpools : pools.get stat = sums.get stat := hearlier.get_eq_self hnone
    exact ⟨pools, Situation.isRun_append.2 ⟨sums, hfirst, hearlier⟩, hlater, by rw [hpools, hval]⟩
  · intro hnone
    obtain ⟨hraw, -⟩ := hlast.get_eq (by rw [hfactors, hnone]; rfl)
    rw [hraw, hval]
  · intro hmultiply hproduct
    rw [← hval] at hproduct ⊢
    obtain ⟨total, htotal, hexact⟩ := Effect.exists_applyAll_of_multiply hmultiply hproduct
    obtain ⟨hraw, hmultiplied⟩ := hlast.get_eq (by rwa [hfactors])
    refine ⟨by rw [hraw, hexact], fun entry hentry => ?_⟩
    cases hadditive : contract.isAdditiveAt entry with
    | true => exact happlied entry (List.mem_filter.2 ⟨hentry, hadditive⟩)
    | false => exact hmultiplied entry (List.mem_filter.2 ⟨hentry, by simp [hadditive]⟩)

/-- A subtraction and a factor before an addition: the addition is still part of the sum that is multiplied. -/
theorem poolReport_exact_money :
    let records : List NodeRecord :=
      [{ id := "start", kind := .start, effect1 := some "None;-;4;Money"
         effect2 := some "None;*;3;Money", connections := ["vault"] },
        { id := "vault", effect1 := some "None;+;9;Money" }]
    let contract : Contract :=
      { name := "heist"
        nodes := records.map .ofRecord
        ascending := by decide
        wellFormed := by decide
        closed := by decide }
    let selection : Selection := { ids := ["start", "vault"], nodup := by decide }
    let report := contract.poolReport .empty selection {} .unresolved
    let situation : Situation :=
      { contract, roster := .empty, selected := contract.effective .empty selection }
    let effects := situation.satisfied.filter fun effect => effect.stat = .money
    let terms := effects.filter fun effect => effect.operator.isAdditive
    let factors := effects.filter fun effect => !effect.operator.isAdditive
    (terms.map Effect.magnitude).sum ≤ Points.greatest ∧
      (∀ effect ∈ factors, effect.operator = .multiply) ∧
      (terms.map Effect.signed).sum.natAbs *
        (factors.map fun effect => max 1 effect.magnitude).prod ≤ Points.greatest ∧
      (report.raw.get .money).val = 15 := by
  intro records contract selection report situation effects terms factors
  have heffects : effects =
      [{ condition := .always, operator := .subtract, amount := { val := 4 }, stat := .money },
        { condition := .always, operator := .multiply, amount := { val := 3 }, stat := .money },
        { condition := .always, operator := .add, amount := { val := 9 }, stat := .money }] := by
    decide +kernel
  have hrange : (terms.map Effect.magnitude).sum ≤ Points.greatest := by
    simp only [terms, heffects]
    decide
  have hmultiply : ∀ effect ∈ factors, effect.operator = .multiply := by
    simp only [factors, heffects]
    decide
  have hproduct : (terms.map Effect.signed).sum.natAbs *
      (factors.map fun effect => max 1 effect.magnitude).prod ≤ Points.greatest := by
    simp only [terms, factors, heffects]
    decide
  have hfifteen : (terms.map Effect.signed).sum *
      (factors.map fun effect => effect.amount.val).prod = 15 := by
    simp only [terms, factors, heffects]
    rfl
  obtain ⟨-, -, -, htotal⟩ :=
    poolReport_exact contract .empty selection {} .unresolved .money hrange
  exact ⟨hrange, hmultiply, hproduct, (htotal hmultiply hproduct).1.trans hfifteen⟩

end Contract

end PerkGraph
