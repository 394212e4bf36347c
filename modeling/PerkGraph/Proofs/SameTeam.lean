import Mathlib.Algebra.BigOperators.Group.List.Basic
import Mathlib.Data.List.FinRange
import PerkGraph.Proofs.PoolInputs
import PerkGraph.Proofs.TeamStrength

/-!
# The same team in other slots

A team is read in three ways only: by counting runners of some types, by looking for one of a type, and by
summing up a stat. All three pass over the slots that nobody fills and none asks in which slot a runner is. So
two rosters with the same runners in filled slots, each as often (`Roster.SameTeam`), open the same gates
(`SameTeam.holds_eq`) and meet the same conditions (`Situation.holds_eq_of_sameTeam`), and nothing tells them apart
(`Contract.team_counts_as_multiset`). A roster stays the same team when its runners change slots and when the
slots that nobody fills get other stats (`Roster.sameTeam_reseat`).
-/

namespace PerkGraph

namespace Roster

/-- Two rosters have the same runners in the slots that are filled, each as often. -/
def SameTeam (roster other : Roster) : Prop :=
  roster.active.Perm other.active

namespace SameTeam

variable {roster other : Roster}

/-! ## What is read of a team -/

theorem hasType_eq (h : roster.SameTeam other) (type : RunnerType) :
    roster.hasType type = other.hasType type := by
  rw [Bool.eq_iff_iff]
  simp only [hasType, List.any_eq_true, List.Perm.mem_iff h]

theorem total_eq (h : roster.SameTeam other) (stat : RunnerStat) :
    roster.total stat = other.total stat := by
  rw [total_eq_sum, total_eq_sum]
  exact (List.Perm.map _ h).sum_eq

theorem holds_eq (h : roster.SameTeam other) (rule : GateRule) (selected : IdSet) :
    rule.holds roster selected = rule.holds other selected := by
  obtain ⟨demand, threshold⟩ := rule
  cases demand with
  | nodes ids => rfl
  | runnerTypes types => simp only [GateRule.holds, List.Perm.countP_eq _ h]
  | runnerStats stats => simp only [GateRule.holds, h.total_eq]

/-! ## Gates -/

theorem unlocksLike (h : roster.SameTeam other) (contract : Contract) :
    contract.UnlocksLike roster contract other := by
  refine List.forall₂_same.2 fun node _ => ⟨rfl, fun selected => ?_⟩
  rw [Contract.isUnlocked, Contract.isUnlocked, Contract.isOpen_eq_opening?,
    Contract.isOpen_eq_opening?]
  simp only [h.holds_eq]

end SameTeam

end Roster

/-! ## Conditions -/

namespace Situation

variable {other : Roster} (situation : Situation) (h : situation.roster.SameTeam other)
include h

theorem holds_eq_of_sameTeam (condition : Condition) (subject : String) :
    holds { situation with roster := other } condition subject =
      situation.holds condition subject := by
  cases condition with
  | always => rfl
  | runnerType type => simp only [holds, h.hasType_eq]
  | runnerStat stat comparison value => simp only [holds, h.total_eq]
  | nodeColor color => rfl
  | nodeColorCombo colors => rfl
  | extension kind argument => rfl

theorem docket_eq_of_sameTeam : docket { situation with roster := other } = situation.docket := by
  simp only [docket, judge, situation.holds_eq_of_sameTeam h]

end Situation

/-! ## Other slots -/

/-- The runner, but with the stats of another one if it fills no slot. -/
def Runner.orIdle (runner idle : Runner) : Runner :=
  if runner.isActive then runner else { idle with type := .empty }

theorem Runner.guard_orIdle (runner idle : Runner) :
    Option.guard isActive (runner.orIdle idle) = Option.guard isActive runner := by
  unfold orIdle
  cases hactive : runner.isActive with
  | true => rw [if_pos rfl]
  | false =>
    rw [if_neg Bool.false_ne_true]
    simp only [Option.guard, hactive]
    rfl

namespace Roster

/-- The roster with its runners in other slots and other stats in the slots that nobody fills. -/
def reseat (roster : Roster) (slots : Equiv.Perm (Fin rosterSlots)) (idle : Fin rosterSlots → Runner) :
    Roster where
  runners := Vector.ofFn fun slot => (roster.runners.get (slots slot)).orIdle (idle slot)

/-- Who fills a slot is found slot by slot. -/
theorem active_eq_filterMap (roster : Roster) :
    roster.active = (List.finRange rosterSlots).filterMap fun slot =>
      Option.guard Runner.isActive (roster.runners.get slot) := by
  have hlist : roster.runners.toList = (List.finRange rosterSlots).map roster.runners.get := by
    refine List.ext_getElem (by simp) fun i hi hi' => ?_
    rw [List.getElem_map, List.getElem_finRange, Vector.getElem_toList]
    rfl
  rw [active, hlist, ← List.filterMap_eq_filter, List.filterMap_map]
  rfl

/-- **Runners may change slots**, and slots that nobody fills may have any stats. -/
theorem sameTeam_reseat (roster : Roster) (slots : Equiv.Perm (Fin rosterSlots))
    (idle : Fin rosterSlots → Runner) : roster.SameTeam (roster.reseat slots idle) := by
  have hseat (slot : Fin rosterSlots) :
      (roster.reseat slots idle).runners.get slot =
        (roster.runners.get (slots slot)).orIdle (idle slot) := Vector.getElem_ofFn _
  rw [SameTeam, active_eq_filterMap, active_eq_filterMap]
  simp only [hseat, Runner.guard_orIdle]
  -- the slots in another order have the same runners
  have hperm := slots.map_finRange_perm.symm.filterMap fun slot =>
    Option.guard Runner.isActive (roster.runners.get slot)
  rwa [List.filterMap_map] at hperm

end Roster

/-! ## The main statement -/

namespace Contract

variable {contract : Contract} {roster other : Roster}

theorem poolReport_eq_of_sameTeam (h : roster.SameTeam other) (selection : Selection)
    (ratios : PreventionRatios) (extensions : Extensions) :
    contract.poolReport roster selection ratios extensions =
      contract.poolReport other selection ratios extensions := by
  have hdocket := Situation.docket_eq_of_sameTeam
    { contract, roster, selected := contract.effective roster selection, extensions } h
  rw [poolReport, poolReport, ← (h.unlocksLike contract).effective_eq, Situation.report,
    Situation.report, hdocket]

/-- **A team counts as a multiset of runners.** Rosters with the same runners in filled slots, each as often,
select alike and have the same pools, prevention and trace. So neither the slot of a runner nor the stats of a
slot that nobody fills have any influence. -/
theorem team_counts_as_multiset (contract : Contract) :
    (∀ roster other : Roster, roster.SameTeam other →
      contract.SelectsLike roster contract other ∧
      ∀ selection ratios extensions, contract.poolReport roster selection ratios extensions =
        contract.poolReport other selection ratios extensions) ∧
    ∀ (roster : Roster) slots idle,
      contract.SelectsLike roster contract (roster.reseat slots idle) ∧
      ∀ selection ratios extensions, contract.poolReport roster selection ratios extensions =
        contract.poolReport (roster.reseat slots idle) selection ratios extensions := by
  have hsame (roster other : Roster) (h : roster.SameTeam other) :
      contract.SelectsLike roster contract other ∧
      ∀ selection ratios extensions, contract.poolReport roster selection ratios extensions =
        contract.poolReport other selection ratios extensions :=
    ⟨(h.unlocksLike contract).selectsLike, poolReport_eq_of_sameTeam h⟩
  exact ⟨hsame, fun roster slots idle => hsame _ _ (roster.sameTeam_reseat slots idle)⟩

/-- Two runners change slots and open the same gate, whatever the stats of the slot left to nobody. -/
theorem team_counts_as_multiset_moved :
    let contract : Contract :=
      { name := "heist"
        nodes :=
          [.ofRecord { id := "gate", kind := .gate, gate := some "RunnerStat:Face,Hacker;7" },
            .ofRecord
              { id := "start", kind := .start, effect1 := some "RunnerType:Hacker;+;5;Money"
                connections := ["gate"] }]
        ascending := by decide
        wellFormed := by decide
        closed := by decide }
    let roster : Roster :=
      { runners := #v[{ type := .face, face := 3 }, { face := 9 }, { type := .hacker, hacker := 4 }] }
    let other : Roster :=
      { runners := #v[{ type := .hacker, hacker := 4 }, { type := .face, face := 3 }, {}] }
    let selection : Selection := { ids := ["gate", "start"], nodup := by decide }
    roster.SameTeam other ∧ contract.SelectsLike roster contract other ∧
      "gate" ∈ contract.effective other selection ∧
      contract.poolReport roster selection {} .unresolved =
        contract.poolReport other selection {} .unresolved := by
  intro contract roster other selection
  have hsame : roster.SameTeam other := by
    unfold Roster.SameTeam
    decide
  obtain ⟨hselects, hpools⟩ := contract.team_counts_as_multiset.1 roster other hsame
  refine ⟨hsame, hselects, ?_, hpools selection {} .unresolved⟩
  decide +kernel

end Contract

end PerkGraph
