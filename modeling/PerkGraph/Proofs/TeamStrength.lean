import Mathlib.Algebra.GroupWithZero.Nat
import Mathlib.Algebra.Order.BigOperators.Group.List
import Mathlib.Algebra.Order.Group.Nat
import PerkGraph.Proofs.WhatIf

/-!
# More requests and a stronger team

Nothing that is available or selected is lost when more is requested or the team gets stronger. A team is
covered by another if every runner who fills a slot has a runner of the same type and no lower stat in that
slot of the other. The runners who count in the one team are then matched among those who count in the other
(`IsCoveredBy.active`), so what a gate counts or sums up does not shrink (`holds_mono_team`), and neither do
the ids in effect (`effective_mono_team`) and the states that they leave (`statesAtMost_of_effective`).
-/

namespace PerkGraph

/-! ## Stronger teams -/

namespace Runner

/-- The other runner has the same type and no lower stat. -/
structure IsCoveredBy (runner other : Runner) : Prop where
  type : other.type = runner.type
  stat : ∀ stat, runner.stat stat ≤ other.stat stat

/-- Those who fill their slots are covered, in order, by some of those who fill theirs in the second
team. -/
theorem sublistForall₂_active {xs ys : List Runner}
    (h : List.Forall₂ (fun a b => a.type = .empty ∨ a.IsCoveredBy b) xs ys) :
    List.SublistForall₂ IsCoveredBy (xs.filter isActive) (ys.filter isActive) := by
  induction h with
  | nil => exact .nil
  | @cons a b xs ys hab _ ih =>
    by_cases ha : a.type = .empty
    · -- an empty slot counts for nothing, whoever has it in the other team
      rw [List.filter_cons_of_neg (by simp [isActive, ha])]
      by_cases hb : b.isActive = true
      · rw [List.filter_cons_of_pos hb]
        exact .cons_right ih
      · rwa [List.filter_cons_of_neg hb]
    · have hcover : a.IsCoveredBy b := hab.resolve_left ha
      have hb : b.isActive = true := by simp [isActive, hcover.type, ha]
      rw [List.filter_cons_of_pos (by simp [isActive, ha]), List.filter_cons_of_pos hb]
      exact .cons hcover ih

end Runner

namespace Roster

/-- Slot by slot, nobody counts in the first team or the runner is covered by the one in the second. -/
def IsCoveredBy (roster other : Roster) : Prop :=
  ∀ slot : Fin rosterSlots, (roster.runners.get slot).type = .empty ∨
    (roster.runners.get slot).IsCoveredBy (other.runners.get slot)

variable {roster other : Roster}

theorem IsCoveredBy.refl (roster : Roster) : roster.IsCoveredBy roster :=
  fun _ => .inr ⟨rfl, fun _ => UInt32.le_refl _⟩

theorem IsCoveredBy.active (h : roster.IsCoveredBy other) :
    List.SublistForall₂ Runner.IsCoveredBy roster.active other.active := by
  refine Runner.sublistForall₂_active (List.forall₂_iff_get.2 ⟨?_, fun i hi _ => ?_⟩)
  · rw [Vector.length_toList, Vector.length_toList]
  · rw [Vector.length_toList] at hi
    exact h ⟨i, hi⟩

theorem IsCoveredBy.countP_type_le (h : roster.IsCoveredBy other) (types : List RunnerType) :
    (roster.active.countP fun runner => runner.type ∈ types) ≤
      other.active.countP fun runner => runner.type ∈ types := by
  obtain ⟨matched, hcovered, hsub⟩ := List.sublistForall₂_iff.1 h.active
  have htypes : roster.active.map Runner.type = matched.map Runner.type := by
    rw [← List.forall₂_eq_eq_eq, List.forall₂_map_left_iff, List.forall₂_map_right_iff]
    exact hcovered.imp fun _ _ hcover => hcover.type.symm
  have hcount (runners : List Runner) :
      (runners.countP fun runner => runner.type ∈ types) =
        (runners.map Runner.type).countP fun type => type ∈ types := by
    rw [List.countP_map]
    rfl
  calc (roster.active.countP fun runner => runner.type ∈ types)
      = matched.countP fun runner => runner.type ∈ types := by rw [hcount, hcount, htypes]
    _ ≤ other.active.countP fun runner => runner.type ∈ types := hsub.countP_le

theorem total_eq_sum (stat : RunnerStat) :
    roster.total stat = (roster.active.map fun runner => (runner.stat stat).toNat).sum := by
  rw [total, List.sum, List.foldr_map]

theorem IsCoveredBy.total_le (h : roster.IsCoveredBy other) (stat : RunnerStat) :
    roster.total stat ≤ other.total stat := by
  rw [total_eq_sum, total_eq_sum]
  refine List.SublistForall₂.sum_le_sum ?_ fun _ _ => Nat.zero_le _
  rw [List.sublistForall₂_map_left_iff, List.sublistForall₂_map_right_iff]
  obtain ⟨matched, hcovered, hsub⟩ := List.sublistForall₂_iff.1 h.active
  refine List.sublistForall₂_iff.2 ⟨matched, hcovered.imp fun a b hcover => ?_, hsub⟩
  exact UInt32.le_iff_toNat_le.1 (hcover.stat stat)

end Roster

/-! ## Unlocking is monotone in the team -/

section Team

variable {roster other : Roster} {s : IdSet}

theorem GateRule.holds_mono_team {rule : GateRule} (hteam : roster.IsCoveredBy other)
    (h : rule.holds roster s = true) : rule.holds other s = true := by
  obtain ⟨demand, threshold⟩ := rule
  cases demand with
  | nodes ids => exact h
  | runnerTypes types =>
    have hle := hteam.countP_type_le types
    simp only [holds, decide_eq_true_eq] at h ⊢
    exact Nat.le_trans h hle
  | runnerStats stats =>
    have hle : (stats.map roster.total).sum ≤ (stats.map other.total).sum :=
      List.sum_le_sum fun stat _ => hteam.total_le stat
    simp only [List.sum, List.foldr_map] at hle
    simp only [holds, decide_eq_true_eq] at h ⊢
    exact Nat.le_trans h hle

namespace Contract

variable {contract : Contract} {node : Node}

theorem isUnlocked_mono_team (hteam : roster.IsCoveredBy other)
    (h : contract.isUnlocked roster node s = true) : contract.isUnlocked other node s = true := by
  simp only [isUnlocked, Bool.and_eq_true] at h ⊢
  exact ⟨isOpen_imp (fun _ => GateRule.holds_mono_team hteam) h.1, h.2⟩

theorem effective_mono_team {selection larger : Selection} (hteam : roster.IsCoveredBy other)
    (hmore : ∀ x ∈ selection, x ∈ larger) :
    contract.effective roster selection ⊆ contract.effective other larger :=
  effective_subset_of_isClosed fun id hid node hnode hunlocked =>
    effective_isClosed id (hmore id hid) node hnode (isUnlocked_mono_team hteam hunlocked)

end Contract

end Team

/-! ## States compared -/

/-- From unavailable over available to selected. -/
def NodeState.rank : NodeState → Nat
  | .unavailable => 0
  | .available => 1
  | .selected => 2

instance : LE NodeState where
  le a b := a.rank ≤ b.rank

namespace Contract

/-- Every node is in a state for the first team and selection, and in no lower one for the second. -/
def StatesAtMost (contract : Contract) (roster : Roster) (selection : Selection) (other : Roster)
    (later : Selection) : Prop :=
  ∀ id state, (id, state) ∈ contract.availability roster selection →
    ∃ state', (id, state') ∈ contract.availability other later ∧ state ≤ state'

variable {contract : Contract} {roster other : Roster} {selection : Selection}

/-- States can only be higher where more is in effect and the team is no weaker. -/
theorem statesAtMost_of_effective {later : Selection} (hteam : roster.IsCoveredBy other)
    (hle : contract.effective roster selection ⊆ contract.effective other later) :
    contract.StatesAtMost roster selection other later := by
  intro id state h
  obtain ⟨node, hnode, rfl⟩ := mem_availability.1 h
  refine ⟨_, mem_availability.2 ⟨node, hnode, rfl⟩, ?_⟩
  unfold stateOf
  by_cases hin : node.id ∈ contract.effective roster selection
  · rw [if_pos hin, if_pos (hle _ hin)]
    exact Nat.le_refl _
  · rw [if_neg hin]
    by_cases hunlocked : contract.isUnlocked roster node (contract.effective roster selection) = true
    · have hstill : contract.isUnlocked other node (contract.effective other later) = true :=
        isUnlocked_mono hle (isUnlocked_mono_team hteam hunlocked)
      rw [if_pos hunlocked, if_pos hstill]
      split <;> decide
    · rw [if_neg hunlocked]
      exact Nat.zero_le _

/-! ## The main statement -/

/-- **Availability is monotone** in the request and in the team. Selecting a node therefore lowers no
node's state and deselecting one raises none, and a stronger team keeps all of a stable selection. -/
theorem availability_mono (contract : Contract) :
    (∀ roster other selection larger, roster.IsCoveredBy other → (∀ x ∈ selection, x ∈ larger) →
      contract.effective roster selection ⊆ contract.effective other larger ∧
      contract.StatesAtMost roster selection other larger) ∧
    (∀ roster selection id update, contract.select roster selection id = .ok update →
      contract.StatesAtMost roster selection roster update.selection) ∧
    (∀ roster selection id update, contract.deselect roster selection id = .ok update →
      contract.StatesAtMost roster update.selection roster selection) ∧
    ∀ roster other selection, roster.IsCoveredBy other → contract.IsStable roster selection →
      contract.IsStable other selection ∧
      contract.prune other selection = { selection, demoted := .empty } := by
  refine ⟨?_, ?_, ?_, ?_⟩
  · intro roster other selection larger hteam hmore
    have hle : contract.effective roster selection ⊆ contract.effective other larger :=
      effective_mono_team hteam hmore
    exact ⟨hle, statesAtMost_of_effective hteam hle⟩
  · intro roster selection id update hselect
    obtain ⟨-, -, -, -, rfl⟩ := select_eq_ok_iff.1 hselect
    refine statesAtMost_of_effective (.refl roster) ?_
    rw [← effective_prune]
    exact effective_subset_insert
  · intro roster selection id update hdeselect
    obtain ⟨-, rfl⟩ := deselect_eq_ok_iff.1 hdeselect
    refine statesAtMost_of_effective (.refl roster) ?_
    rw [effective_prune]
    exact effective_mono fun x hx => (Selection.mem_filter.1 hx).1
  · intro roster other selection hteam hstable
    have hkept : contract.IsStable other selection := isStable_iff.2 fun id hid =>
      effective_mono_team hteam (fun _ hx => hx) id (isStable_iff.1 hstable id hid)
    exact ⟨hkept, hkept.prune_eq⟩

/-- A team whose hacker gets better, and in which an empty slot is filled, opens a gate that was closed to it.
What the weaker team has selected stays, selecting behind the gate lowers no state, and leaving the gate
raises none. -/
theorem availability_mono_hired :
    let contract : Contract :=
      { name := "heist"
        nodes :=
          [.ofRecord
              { id := "gate", kind := .gate, gate := some "RunnerStat:Hacker;5", connections := ["vault"] },
            .ofRecord { id := "start", kind := .start, connections := ["gate"] },
            .ofRecord { id := "vault" }]
        ascending := by decide
        wellFormed := by decide
        closed := by decide }
    let roster : Roster := { runners := #v[{ type := .hacker, hacker := 3 }, { hacker := 9 }, {}] }
    let other : Roster :=
      { runners := #v[{ type := .hacker, hacker := 4, ninja := 1 }, { type := .muscle, hacker := 1 }, {}] }
    let selection : Selection := { ids := ["start"], nodup := by decide }
    let larger : Selection := { ids := ["start", "gate"], nodup := by decide }
    let full : SelectionUpdate :=
      { selection := { ids := ["start", "gate", "vault"], nodup := by decide }, demoted := .empty }
    roster.IsCoveredBy other ∧
      contract.effective roster larger = selection.toIdSet ∧
      contract.effective other larger = larger.toIdSet ∧
      contract.StatesAtMost roster selection other larger ∧
      contract.IsStable other selection ∧
      contract.select other larger "vault" = .ok full ∧
      contract.StatesAtMost other larger other full.selection ∧
      contract.deselect other full.selection "gate" =
        .ok { selection, demoted := { toList := ["vault"], ascending := by decide } } ∧
      contract.StatesAtMost other selection other full.selection := by
  intro contract roster other selection larger full
  have hhacker : Runner.IsCoveredBy { type := .hacker, hacker := 3 }
      { type := .hacker, hacker := 4, ninja := 1 } := ⟨rfl, fun stat => by cases stat <;> decide⟩
  have hteam : roster.IsCoveredBy other := by
    intro slot
    match slot with
    | ⟨0, _⟩ => exact .inr hhacker
    | ⟨1, _⟩ | ⟨2, _⟩ => exact .inl rfl
  have hstable : contract.IsStable roster selection := by decide +kernel
  have hselect : contract.select other larger "vault" = .ok full := by decide +kernel
  have hdeselect : contract.deselect other full.selection "gate" =
      .ok { selection, demoted := { toList := ["vault"], ascending := by decide } } := by
    decide +kernel
  obtain ⟨hmore, hpicked, hdropped, hkept⟩ := availability_mono contract
  exact ⟨hteam, by decide +kernel, by decide +kernel,
    (hmore roster other selection larger hteam (by decide)).2,
    (hkept roster other selection hteam hstable).1, hselect, hpicked other larger "vault" full hselect,
    hdeselect, hdropped other full.selection "gate" _ hdeselect⟩

end Contract

end PerkGraph
