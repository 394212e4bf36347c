import Mathlib.Data.Finset.Card
import PerkGraph.Proofs.LeastSelection

/-!
# Scanning in any order

A pass judges every node by what is retained so far, so what it retains depends on the order of the scan. What the
passes come to does not (`Contract.settle_congr`): the ids retained in the end are the least set that contains every
scanned node it unlocks, and no order is mentioned in that. Neither is how often a node is scanned.

How many passes it takes does depend on the order. A pass that changes anything adds an id, so there are at most as
many of these as ids, and one more that changes nothing (`Contract.settleWithin?_eq`). Nodes that are scanned against
the direction of their edges take all of them (`Contract.settle_ignores_order_backwards`).
-/

namespace PerkGraph.Contract

variable {contract : Contract} {roster : Roster} {requested others : List Node} {retained : IdSet}

/-! ## What the passes come to -/

theorem subset_settle : retained ⊆ contract.settle roster requested retained :=
  settle_induction (P := (retained ⊆ ·))
    (fun _ _ _ _ _ hs x hx => IdSet.mem_insert.2 (.inr (hs x hx))) fun _ hx => hx

theorem mem_settle_of_isUnlocked {node : Node} (hmem : node ∈ requested)
    (h : contract.isUnlocked roster node (contract.settle roster requested retained) = true) :
    node.id ∈ contract.settle roster requested retained :=
  pass_settle ▸ mem_pass_of_isUnlocked hmem h

theorem settle_subset {s : IdSet} (hretained : retained ⊆ s)
    (hclosed : ∀ node ∈ requested, contract.isUnlocked roster node s = true → node.id ∈ s) :
    contract.settle roster requested retained ⊆ s := by
  refine settle_induction (P := (· ⊆ s)) (fun t node hmem _ hunlocked hts x hx => ?_) hretained
  rcases IdSet.mem_insert.1 hx with rfl | hx
  · exact hclosed node hmem (isUnlocked_mono hts hunlocked)
  · exact hts x hx

/-- **The order of the scan does not matter**, nor how often a node is scanned. -/
theorem settle_congr (h : ∀ node, node ∈ requested ↔ node ∈ others) :
    contract.settle roster requested retained = contract.settle roster others retained := by
  have hle {xs ys : List Node} (hsub : ∀ node ∈ xs, node ∈ ys) :
      contract.settle roster xs retained ⊆ contract.settle roster ys retained :=
    settle_subset subset_settle fun node hmem => mem_settle_of_isUnlocked (hsub node hmem)
  exact IdSet.subset_antisymm (hle fun node => (h node).1) (hle fun node => (h node).2)

/-! ## Passes with a flag -/

/-- The ids retained so far and whether any has been added, and what a node changes about it. -/
def judge (contract : Contract) (roster : Roster) (state : IdSet × Bool) (node : Node) : IdSet × Bool :=
  if node.id ∈ state.1 then state
  else if contract.isUnlocked roster node state.1 then (state.1.insert node.id, true)
  else state

/-- One pass, with a flag for whether it has added an id. -/
def scan (contract : Contract) (roster : Roster) (requested : List Node) (retained : IdSet) :
    IdSet × Bool :=
  requested.foldl (contract.judge roster) (retained, false)

/-- One pass after another, until the flag of one is down. There is no result if that takes more passes than are
granted. -/
def settleWithin? (contract : Contract) (roster : Roster) (requested : List Node) :
    (passes : Nat) → IdSet → Option IdSet
  | 0, _ => none
  | passes + 1, retained =>
    let (next, changed) := contract.scan roster requested retained
    if changed then settleWithin? contract roster requested passes next else some next

theorem judge_eq (retained : IdSet) (flag : Bool) (node : Node) :
    contract.judge roster (retained, flag) node =
      (contract.retain roster retained node,
        flag || decide (contract.retain roster retained node ≠ retained)) := by
  unfold judge retain
  by_cases hin : node.id ∈ retained
  · simp [hin]
  · cases contract.isUnlocked roster node retained
    · simp [hin]
    · have hne : retained.insert node.id ≠ retained := fun heq =>
        hin (heq ▸ IdSet.mem_insert.2 (.inl rfl))
      simp [hin, hne]

/-- A pass changes nothing if and only if its first node changes nothing and neither does the rest: what a node adds
stays. -/
theorem pass_cons_eq_iff {node : Node} {rest : List Node} :
    contract.pass roster (node :: rest) retained = retained ↔
      contract.retain roster retained node = retained ∧
        contract.pass roster rest (contract.retain roster retained node) =
          contract.retain roster retained node := by
  rw [pass_cons]
  refine ⟨fun h => ?_, fun h => h.2.trans h.1⟩
  have hnode : contract.retain roster retained node = retained :=
    IdSet.subset_antisymm (fun x hx => h ▸ mem_pass_of_mem hx) fun x hx => mem_retain_of_mem hx
  exact ⟨hnode, h.trans hnode.symm⟩

/-- **The flag is up if and only if the pass has changed anything.** -/
theorem scan_eq (requested : List Node) (retained : IdSet) :
    contract.scan roster requested retained =
      (contract.pass roster requested retained,
        decide (contract.pass roster requested retained ≠ retained)) := by
  suffices h : ∀ flag, requested.foldl (contract.judge roster) (retained, flag) =
      (contract.pass roster requested retained,
        flag || decide (contract.pass roster requested retained ≠ retained)) from h false
  induction requested generalizing retained with
  | nil => simp [pass]
  | cons node rest ih =>
    intro flag
    have hchanged : (decide (contract.retain roster retained node ≠ retained) ||
        decide (contract.pass roster rest (contract.retain roster retained node) ≠
          contract.retain roster retained node)) =
        decide (contract.pass roster (node :: rest) retained ≠ retained) := by
      rw [← Bool.decide_or, decide_eq_decide, ne_eq, ne_eq, ne_eq, pass_cons_eq_iff, not_and_or]
    rw [List.foldl_cons, judge_eq, ih, Bool.or_assoc, hchanged, pass_cons]

theorem settleWithin?_succ (passes : Nat) :
    contract.settleWithin? roster requested (passes + 1) retained =
      if contract.pass roster requested retained = retained then some retained
      else contract.settleWithin? roster requested passes (contract.pass roster requested retained) := by
  rw [settleWithin?, scan_eq]
  by_cases h : contract.pass roster requested retained = retained
  · simp [h]
  · simp [h]

/-! ## How many passes it takes -/

theorem settle_eq :
    contract.settle roster requested retained =
      if contract.pass roster requested retained = retained then retained
      else contract.settle roster requested (contract.pass roster requested retained) := by
  rw [settle]

/-- Any result of the passes is the settled set. -/
theorem eq_settle_of_settleWithin? {passes : Nat} {result : IdSet}
    (h : contract.settleWithin? roster requested passes retained = some result) :
    result = contract.settle roster requested retained := by
  induction passes generalizing retained with
  | zero => simp [settleWithin?] at h
  | succ passes ih =>
    rw [settleWithin?_succ] at h
    rw [settle_eq]
    split at h
    · rename_i hsame
      rw [if_pos hsame, Option.some.inj h]
    · rename_i hchanged
      rw [if_neg hchanged, ih h]

/-- **As many passes as ids are missing, and one more, are enough.** -/
theorem settleWithin?_eq {passes : Nat} (h : missing requested retained < passes) :
    contract.settleWithin? roster requested passes retained =
      some (contract.settle roster requested retained) := by
  induction passes generalizing retained with
  | zero => omega
  | succ passes ih =>
    rw [settleWithin?_succ, settle_eq]
    split
    · rfl
    · rename_i hchanged
      have hless := missing_pass_lt hchanged
      exact ih (by omega)

/-- Before the first pass, all ids are missing. -/
theorem missing_empty (nodes : List Node) :
    missing nodes .empty = (nodes.map Node.id).toFinset.card := by
  have hall : ((IdSet.ofList (nodes.map Node.id)).filter fun id => id ∉ IdSet.empty).toList =
      (IdSet.ofList (nodes.map Node.id)).toList := List.filter_eq_self.2 (by simp)
  have hids : (IdSet.ofList (nodes.map Node.id)).toList.toFinset = (nodes.map Node.id).toFinset := by
    ext id
    rw [List.mem_toFinset, List.mem_toFinset, ← IdSet.mem_def, IdSet.mem_ofList]
  rw [missing, IdSet.size, hall, ← hids, List.toFinset_card_of_nodup (IdSet.nodup_toList _)]

/-- **Whatever the order and however often a node is scanned**, as many passes as there are distinct ids, and one
more, end with the same ids retained; so does every run that ends sooner. For the nodes that a selection requests,
these are the ids in effect. -/
theorem settle_ignores_order (contract : Contract) (roster : Roster) {requested others : List Node}
    (h : ∀ node, node ∈ others ↔ node ∈ requested) :
    (∀ passes, (requested.map Node.id).toFinset.card + 1 ≤ passes →
      contract.settleWithin? roster others passes .empty =
        some (contract.settle roster requested .empty)) ∧
    (∀ passes result, contract.settleWithin? roster others passes .empty = some result →
      result = contract.settle roster requested .empty) ∧
    ∀ selection, (∀ node, node ∈ requested ↔ node ∈ contract.requested selection) →
      contract.settle roster requested .empty = contract.effective roster selection := by
  have hsettle : contract.settle roster others .empty = contract.settle roster requested .empty := settle_congr h
  have hids : (others.map Node.id).toFinset = (requested.map Node.id).toFinset := by
    ext x
    simp [h]
  refine ⟨fun passes hpasses => ?_, fun passes result hresult => ?_, fun selection hselection => ?_⟩
  · rw [settleWithin?_eq, hsettle]
    rw [missing_empty, hids]
    omega
  · rw [eq_settle_of_settleWithin? hresult, hsettle]
  · exact settle_congr hselection

/-- Three nodes that are scanned against their edges: each pass unlocks one of them, so no run of three passes ends.
One more pass is enough, also with a node scanned twice. -/
theorem settle_ignores_order_backwards :
    let a : Node := .ofRecord { id := "a" }
    let b : Node := .ofRecord { id := "b", connections := ["a"] }
    let c : Node := .ofRecord { id := "c", kind := .start, connections := ["b"] }
    let contract : Contract :=
      { name := "backwards"
        nodes := [a, b, c]
        ascending := by decide
        wellFormed := by decide
        closed := by decide }
    (∀ node, node ∈ [a, b, c, c] ↔ node ∈ [c, b, a]) ∧
    ([c, b, a].map Node.id).toFinset.card = 3 ∧
    contract.settleWithin? .empty [a, b, c, c] 3 .empty = none ∧
    contract.settleWithin? .empty [a, b, c, c] 4 .empty =
      some (contract.settle .empty [c, b, a] .empty) := by
  intro a b c contract
  have hsame : ∀ node, node ∈ [a, b, c, c] ↔ node ∈ [c, b, a] := by
    intro node
    simp only [List.mem_cons, List.not_mem_nil, or_false]
    tauto
  have hcard : ([c, b, a].map Node.id).toFinset.card = 3 := by decide
  refine ⟨hsame, hcard, by decide +kernel, ?_⟩
  exact (settle_ignores_order contract .empty hsame).1 4 (by rw [hcard])

end PerkGraph.Contract
