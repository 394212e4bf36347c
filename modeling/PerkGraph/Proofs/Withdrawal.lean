import PerkGraph.Proofs.Stability

/-!
# The order of deselection

Taking ids out one at a time prunes after every success and refuses ids that an earlier cascade has dropped.
Neither shows in the end: what is left in effect is what the selection without all of those ids puts in
effect (`withdrawAll_settles`). Each attempt leaves in effect what erasing the id would leave
(`effective_withdraw`), and erasing more ids sees nothing of a selection but what it puts in effect
(`effective_without_congr`).
-/

namespace PerkGraph

namespace Selection

/-- The selection without the ids of a list. -/
def without (s : Selection) (ids : List String) : Selection :=
  s.filter fun x => x ∉ ids

variable {s : Selection} {ids : List String} {x : String}

theorem mem_without : x ∈ s.without ids ↔ x ∈ s ∧ x ∉ ids := by
  simp [without]

end Selection

namespace Contract

/-- The selection after an attempt to deselect an id: as it was, if the attempt is refused. -/
def withdraw (contract : Contract) (roster : Roster) (selection : Selection) (id : String) :
    Selection :=
  match contract.deselect roster selection id with
  | .ok update => update.selection
  | .error _ => selection

/-- The selection after attempts to deselect ids one after another. -/
def withdrawAll (contract : Contract) (roster : Roster) (selection : Selection)
    (ids : List String) : Selection :=
  ids.foldl (contract.withdraw roster) selection

variable {contract : Contract} {roster : Roster} {selection : Selection} {id : String}

/-! ## One attempt -/

theorem withdraw_of_ok {update : SelectionUpdate}
    (h : contract.deselect roster selection id = .ok update) :
    contract.withdraw roster selection id = update.selection := by
  rw [withdraw, h]

theorem withdraw_of_not_mem (h : id ∉ contract.effective roster selection) :
    contract.withdraw roster selection id = selection := by
  unfold withdraw
  cases hdeselect : contract.deselect roster selection id with
  | error error => rfl
  | ok update => exact absurd (deselect_eq_ok_iff.1 hdeselect).1 h

/-- An accepted attempt leaves in effect what erasing the id leaves, and so does a refused one: the id was
not in effect. -/
theorem effective_withdraw :
    contract.effective roster (contract.withdraw roster selection id) =
      contract.effective roster (selection.erase id) := by
  by_cases hin : id ∈ contract.effective roster selection
  · rw [withdraw_of_ok (deselect_eq_ok_iff.2 ⟨hin, rfl⟩), effective_prune]
  · rw [withdraw_of_not_mem hin]
    refine (effective_eq_of_subset (fun x hx => ?_) fun x hx => ?_).symm
    · exact (Selection.mem_erase.1 hx).1
    · refine Selection.mem_erase.2 ⟨(mem_effective_iff.1 hx).1, ?_⟩
      rintro rfl
      exact hin hx

theorem IsStable.withdraw (h : contract.IsStable roster selection) :
    contract.IsStable roster (contract.withdraw roster selection id) := by
  unfold Contract.withdraw
  cases hdeselect : contract.deselect roster selection id with
  | error error => exact h
  | ok update => exact deselect_isStable hdeselect

/-! ## Attempts in a row -/

theorem withdrawAll_append (earlier later : List String) :
    contract.withdrawAll roster selection (earlier ++ later) =
      contract.withdrawAll roster (contract.withdrawAll roster selection earlier) later := by
  simp only [withdrawAll, List.foldl_append]

/-- Pruning before ids are erased changes nothing. -/
theorem effective_prune_without (selection : Selection) (ids : List String) :
    contract.effective roster ((contract.prune roster selection).selection.without ids) =
      contract.effective roster (selection.without ids) := by
  have hle : contract.effective roster (selection.without ids) ⊆
      contract.effective roster selection :=
    effective_mono fun x hx => (Selection.mem_without.1 hx).1
  refine effective_eq_of_subset (fun x hx => ?_) fun x hx => ?_
  · obtain ⟨hpruned, hout⟩ := Selection.mem_without.1 hx
    exact Selection.mem_without.2 ⟨(mem_effective_iff.1 (mem_prune.1 hpruned)).1, hout⟩
  · have hout := (Selection.mem_without.1 (mem_effective_iff.1 hx).1).2
    exact Selection.mem_without.2 ⟨mem_prune.2 (hle x hx), hout⟩

theorem effective_without_congr {s t : Selection} (ids : List String)
    (h : contract.effective roster s = contract.effective roster t) :
    contract.effective roster (s.without ids) = contract.effective roster (t.without ids) := by
  rw [← effective_prune_without s, ← effective_prune_without t]
  refine effective_congr fun x => ?_
  rw [Selection.mem_without, Selection.mem_without, mem_prune, mem_prune, h]

theorem effective_withdrawAll (ids : List String) :
    contract.effective roster (contract.withdrawAll roster selection ids) =
      contract.effective roster (selection.without ids) := by
  induction ids generalizing selection with
  | nil => exact effective_congr fun x => by simp [withdrawAll, Selection.mem_without]
  | cons id rest ih =>
    calc contract.effective roster (contract.withdrawAll roster selection (id :: rest))
        = contract.effective roster ((contract.withdraw roster selection id).without rest) := ih
      _ = contract.effective roster ((selection.erase id).without rest) :=
        effective_without_congr rest effective_withdraw
      _ = contract.effective roster (selection.without (id :: rest)) := by
        refine effective_congr fun x => ?_
        simp only [Selection.mem_without, Selection.mem_erase, List.mem_cons, not_or, and_assoc]

theorem IsStable.withdrawAll (h : contract.IsStable roster selection) (ids : List String) :
    contract.IsStable roster (contract.withdrawAll roster selection ids) := by
  unfold Contract.withdrawAll
  induction ids generalizing selection with
  | nil => exact h
  | cons id rest ih => exact ih h.withdraw

/-! ## The main statement -/

/-- **Deselection settles**, whatever the order of the ids and whichever attempts are refused: what is left
in effect is what the selection without the ids puts in effect. Once an attempt has been accepted, the ids
left selected are those in effect. -/
theorem withdrawAll_settles (contract : Contract) (roster : Roster) (selection : Selection)
    (ids : List String) :
    let final := contract.withdrawAll roster selection ids
    let left := contract.effective roster (selection.without ids)
    contract.effective roster final = left ∧
    (∀ others : List String, (∀ x, x ∈ others ↔ x ∈ ids) →
      contract.effective roster (contract.withdrawAll roster selection others) = left) ∧
    ∀ earlier id later update, ids = earlier ++ id :: later →
      contract.deselect roster (contract.withdrawAll roster selection earlier) id = .ok update →
      final.toIdSet = left := by
  intro final left
  have hleft : contract.effective roster final = left := effective_withdrawAll ids
  refine ⟨hleft, fun others hothers => ?_, fun earlier id later update hids hok => ?_⟩
  · rw [effective_withdrawAll]
    refine effective_congr fun x => ?_
    rw [Selection.mem_without, Selection.mem_without, hothers]
  · have hfinal : final = contract.withdrawAll roster update.selection later := by
      unfold final
      rw [hids, withdrawAll_append]
      exact congrArg (contract.withdrawAll roster · later) (withdraw_of_ok hok)
    have hstable : contract.IsStable roster final := hfinal ▸ (deselect_isStable hok).withdrawAll later
    exact hstable.symm.trans hleft

/-- A chain whose end goes with its middle: in one order every id that names a node is accepted, in the other
the end is refused, and what is left is the same. -/
theorem withdrawAll_settles_chain :
    let contract : Contract :=
      { name := "chain"
        nodes :=
          [.ofRecord { id := "a", connections := ["b"] }, .ofRecord { id := "b" },
            .ofRecord { id := "start", kind := .start, connections := ["a"] }]
        ascending := by decide
        wellFormed := by decide
        closed := by decide }
    let selection : Selection := { ids := ["start", "b", "a"], nodup := by decide }
    let left : SelectionUpdate :=
      { selection := { ids := ["start"], nodup := by decide }, demoted := .empty }
    contract.deselect .empty (contract.withdrawAll .empty selection ["b", "ghost"]) "a" = .ok left ∧
      contract.deselect .empty (contract.withdrawAll .empty selection ["a"]) "b" =
        .error (.notSelected "b") ∧
      contract.effective .empty (selection.without ["b", "ghost", "a"]) = left.selection.toIdSet ∧
      (contract.withdrawAll .empty selection ["b", "ghost", "a"]).toIdSet = left.selection.toIdSet ∧
      contract.effective .empty (contract.withdrawAll .empty selection ["a", "b", "ghost"]) =
        left.selection.toIdSet := by
  intro contract selection left
  have hlast : contract.deselect .empty (contract.withdrawAll .empty selection ["b", "ghost"]) "a" =
      .ok left := by decide +kernel
  have hleft : contract.effective .empty (selection.without ["b", "ghost", "a"]) =
      left.selection.toIdSet := by decide +kernel
  have hsame : ∀ x, x ∈ ["a", "b", "ghost"] ↔ x ∈ ["b", "ghost", "a"] := fun x =>
    List.Perm.mem_iff (by decide)
  obtain ⟨-, horder, hset⟩ := contract.withdrawAll_settles .empty selection ["b", "ghost", "a"]
  refine ⟨hlast, by decide +kernel, hleft, ?_, ?_⟩
  · rw [hset ["b", "ghost"] "a" [] left rfl hlast, hleft]
  · rw [horder ["a", "b", "ghost"] hsame, hleft]

end Contract

end PerkGraph
