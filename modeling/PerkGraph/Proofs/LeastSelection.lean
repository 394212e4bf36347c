import Mathlib.Data.List.Chain
import PerkGraph.Availability

/-!
# The ids in effect are a least fixed point

Unlocking is monotone in the selected ids (`isUnlocked_mono`). A pass judges every node by a set that is
still growing, so the set is followed insertion by insertion: `effective_induction` carries a property from
nothing to the ids in effect, one unlocked node at a time. From it, and from a last pass that adds nothing:

* the ids in effect are the requested ids that they unlock (`mem_effective_iff`);
* every set that contains the requested nodes it unlocks contains them (`effective_subset_of_isClosed`);
* each of them ends a route of edges from a start that stays inside them (`exists_isRoute`).
-/

namespace PerkGraph

/-! ## Unlocking is monotone -/

section Monotone

variable {contract : Contract} {roster : Roster} {s t : IdSet}

theorem GateRule.holds_mono {rule : GateRule} (hst : s ⊆ t) (h : rule.holds roster s = true) :
    rule.holds roster t = true := by
  obtain ⟨demand, threshold⟩ := rule
  cases demand with
  | nodes ids =>
    rw [holds_nodes_iff rfl] at h ⊢
    by_cases h0 : threshold = 0
    · rw [if_pos h0] at h ⊢
      exact fun id hid => hst id (h id hid)
    · rw [if_neg h0] at h ⊢
      have hhits : (ids.filter (· ∈ s)).size ≤ (ids.filter (· ∈ t)).size := by
        refine IdSet.size_filter_mono (fun id hs => ?_) ids
        exact decide_eq_true (hst id (of_decide_eq_true hs))
      exact h.trans hhits
  | runnerTypes types => exact h
  | runnerStats stats => exact h

namespace Contract

/-- A node stays open if its rule, should it be a gate, holds on. -/
theorem isOpen_imp {other : Roster} {node : Node}
    (hrule : ∀ rule : GateRule, rule.holds roster s = true → rule.holds other t = true)
    (h : isOpen roster node s = true) : isOpen other node t = true := by
  unfold isOpen at h ⊢
  split
  · rename_i hgate
    rw [if_pos hgate] at h
    cases hactive : node.activeGate with
    | none => simp [hactive] at h
    | some rule =>
      rw [hactive] at h
      cases rule with
      | error _ => exact h
      | ok rule => exact hrule rule h
  · rfl

theorem isOpen_mono {node : Node} (hst : s ⊆ t) (h : isOpen roster node s = true) :
    isOpen roster node t = true :=
  isOpen_imp (fun _ => GateRule.holds_mono hst) h

theorem isReached_iff {node : Node} :
    contract.isReached node s = true ↔
      node.kind = .start ∨ ∃ id ∈ s, contract.HasEdge id node.id := by
  simp only [isReached, Bool.or_eq_true, decide_eq_true_eq, List.any_eq_true, mem_predecessors]
  exact or_congr_right ⟨fun ⟨id, h, hs⟩ => ⟨id, hs, h⟩, fun ⟨id, hs, h⟩ => ⟨id, h, hs⟩⟩

/-- What a set of ids unlocks, a larger set unlocks. -/
theorem isUnlocked_mono {node : Node} (hst : s ⊆ t)
    (h : contract.isUnlocked roster node s = true) : contract.isUnlocked roster node t = true := by
  simp only [isUnlocked, Bool.and_eq_true, isReached_iff] at h ⊢
  exact ⟨isOpen_mono hst h.1, h.2.imp_right fun ⟨id, hid, hedge⟩ => ⟨id, hst id hid, hedge⟩⟩

end Contract

end Monotone

namespace Contract

variable {contract : Contract} {roster : Roster}

/-! ## What passes keep -/

section Passes

variable {P : IdSet → Prop} {requested : List Node} {retained : IdSet}

theorem pass_cons (node : Node) (rest : List Node) :
    contract.pass roster (node :: rest) retained =
      contract.pass roster rest (contract.retain roster retained node) := rfl

theorem mem_retain_of_isUnlocked {node : Node}
    (h : contract.isUnlocked roster node retained = true) :
    node.id ∈ contract.retain roster retained node := by
  unfold retain
  by_cases hin : node.id ∈ retained
  · rwa [if_pos hin]
  · rw [if_neg hin, if_pos h]
    exact IdSet.mem_insert.2 (.inl rfl)

/-- What every insertion of an unlocked node keeps, a pass keeps. -/
theorem pass_induction
    (hinsert : ∀ s, ∀ node ∈ requested, node.id ∉ s → contract.isUnlocked roster node s = true →
      P s → P (s.insert node.id)) (h : P retained) : P (contract.pass roster requested retained) := by
  induction requested generalizing retained with
  | nil => exact h
  | cons node rest ih =>
    have hnode : P (contract.retain roster retained node) := by
      unfold retain
      split
      · exact h
      · rename_i hout
        split
        · rename_i hunlocked
          exact hinsert retained node List.mem_cons_self hout hunlocked h
        · exact h
    exact ih (fun s other hother => hinsert s other (List.mem_cons_of_mem _ hother)) hnode

theorem settle_induction
    (hinsert : ∀ s, ∀ node ∈ requested, node.id ∉ s → contract.isUnlocked roster node s = true →
      P s → P (s.insert node.id)) (h : P retained) :
    P (contract.settle roster requested retained) := by
  fun_induction settle contract roster requested retained with
  | case1 => exact h
  | case2 _ next hne ih => exact ih (pass_induction hinsert h)

/-- The last pass adds nothing. -/
theorem pass_settle :
    contract.pass roster requested (contract.settle roster requested retained) =
      contract.settle roster requested retained := by
  fun_induction settle contract roster requested retained with
  | case1 _ next heq => exact heq
  | case2 _ next hne ih => exact ih

/-- Whatever is unlocked when a pass begins is in its result: the set only grows until the node's turn. -/
theorem mem_pass_of_isUnlocked {node : Node} (hmem : node ∈ requested)
    (h : contract.isUnlocked roster node retained = true) :
    node.id ∈ contract.pass roster requested retained := by
  induction requested generalizing retained with
  | nil => simp at hmem
  | cons other rest ih =>
    rw [pass_cons]
    rcases List.mem_cons.1 hmem with rfl | hrest
    · exact mem_pass_of_mem (mem_retain_of_isUnlocked h)
    · exact ih hrest (isUnlocked_mono (fun x hx => mem_retain_of_mem hx) h)

end Passes

/-! ## The ids in effect -/

theorem mem_requested {selection : Selection} {node : Node} :
    node ∈ contract.requested selection ↔
      node.id ∈ selection ∧ contract.node? node.id = some node := by
  simp only [requested, List.mem_filterMap, ← IdSet.mem_def, Selection.mem_toIdSet]
  constructor
  · rintro ⟨id, hid, hnode⟩
    have := id_of_node? hnode
    exact ⟨this ▸ hid, node?_id hnode⟩
  · rintro ⟨hid, hnode⟩
    exact ⟨node.id, hid, hnode⟩

/-- Holds of a set that contains every requested node it unlocks. -/
def IsClosed (contract : Contract) (roster : Roster) (selection : Selection) (s : IdSet) : Prop :=
  ∀ id ∈ selection, ∀ node, contract.node? id = some node →
    contract.isUnlocked roster node s = true → id ∈ s

section Effective

variable {selection : Selection}

/-- **Induction on the ids in effect**: they grow from nothing by requested nodes, each of them
unlocked by the ids before it. -/
theorem effective_induction {P : IdSet → Prop} (hempty : P .empty)
    (hinsert : ∀ s id node, id ∈ selection → contract.node? id = some node → id ∉ s →
      contract.isUnlocked roster node s = true → P s → P (s.insert id)) :
    P (contract.effective roster selection) := by
  refine settle_induction (fun s node hnode hout hunlocked hs => ?_) hempty
  obtain ⟨hid, hfound⟩ := mem_requested.1 hnode
  exact hinsert s node.id node hid hfound hout hunlocked hs

theorem effective_isClosed :
    contract.IsClosed roster selection (contract.effective roster selection) := by
  intro id hid node hnode hunlocked
  obtain rfl := id_of_node? hnode
  have hin := mem_pass_of_isUnlocked (mem_requested.2 ⟨hid, hnode⟩) hunlocked
  rwa [effective, pass_settle] at hin

/-- **Leastness**: the ids in effect are in every closed set. -/
theorem effective_subset_of_isClosed {s : IdSet} (h : contract.IsClosed roster selection s) :
    contract.effective roster selection ⊆ s := by
  refine effective_induction (P := (· ⊆ s)) (IdSet.empty_subset s) ?_
  intro t id node hid hnode _ hunlocked hts x hx
  rcases IdSet.mem_insert.1 hx with rfl | hx
  · exact h x hid node hnode (isUnlocked_mono hts hunlocked)
  · exact hts x hx

theorem isUnlocked_of_mem_effective {id : String}
    (h : id ∈ contract.effective roster selection) :
    id ∈ selection ∧ ∃ node, contract.node? id = some node ∧
      contract.isUnlocked roster node (contract.effective roster selection) = true := by
  -- what unlocked an id once still unlocks it in every larger set
  let Supported (s : IdSet) : Prop := ∀ x ∈ s, x ∈ selection ∧ ∃ node,
    contract.node? x = some node ∧ contract.isUnlocked roster node s = true
  have hsupported : Supported (contract.effective roster selection) := by
    refine effective_induction (fun x hx => absurd hx (IdSet.not_mem_empty x)) ?_
    intro s y node hy hnode _ hunlocked hs x hx
    have hgrow : s ⊆ s.insert y := fun z hz => IdSet.mem_insert.2 (.inr hz)
    rcases IdSet.mem_insert.1 hx with rfl | hx
    · exact ⟨hy, node, hnode, isUnlocked_mono hgrow hunlocked⟩
    · obtain ⟨hsel, other, hother, hunl⟩ := hs x hx
      exact ⟨hsel, other, hother, isUnlocked_mono hgrow hunl⟩
  exact hsupported id h

/-- **The fixed point**: the ids in effect are the requested ids that they unlock. -/
theorem mem_effective_iff {id : String} :
    id ∈ contract.effective roster selection ↔
      id ∈ selection ∧ ∃ node, contract.node? id = some node ∧
        contract.isUnlocked roster node (contract.effective roster selection) = true :=
  ⟨isUnlocked_of_mem_effective,
    fun ⟨hid, node, hnode, hunlocked⟩ => effective_isClosed id hid node hnode hunlocked⟩

theorem exists_node_of_mem_effective {id : String} (h : id ∈ contract.effective roster selection) :
    ∃ node, contract.node? id = some node := by
  obtain ⟨-, node, hnode, -⟩ := mem_effective_iff.1 h
  exact ⟨node, hnode⟩

end Effective

/-! ## Routes -/

/-- A path along edges from a start to a node. -/
structure IsRoute (contract : Contract) (path : List String) (target : String) : Prop where
  start : ∃ node, path.head? = some node.id ∧ contract.node? node.id = some node ∧ node.kind = .start
  edges : path.IsChain contract.HasEdge
  ends : path.getLast? = some target

theorem IsRoute.singleton {id : String} {node : Node} (h : contract.node? id = some node)
    (hkind : node.kind = .start) : contract.IsRoute [id] id := by
  obtain rfl := id_of_node? h
  exact ⟨⟨node, rfl, h, hkind⟩, List.isChain_singleton _, rfl⟩

theorem IsRoute.extend {path : List String} {id target : String} (h : contract.IsRoute path id)
    (hedge : contract.HasEdge id target) : contract.IsRoute (path ++ [target]) target := by
  obtain ⟨⟨node, hhead, hnode, hkind⟩, hedges, hends⟩ := h
  refine ⟨⟨node, ?_, hnode, hkind⟩, ?_, by simp⟩
  · rw [List.head?_append, hhead]
    rfl
  · refine List.isChain_append.2 ⟨hedges, List.isChain_singleton _, fun x hx y hy => ?_⟩
    rw [hends, Option.mem_some_iff] at hx
    rw [List.head?_cons, Option.mem_some_iff] at hy
    exact hx ▸ hy ▸ hedge

/-- **No id in effect hangs in the air**: a route from a start leads to it through ids in effect. -/
theorem exists_isRoute {selection : Selection} {id : String}
    (h : id ∈ contract.effective roster selection) :
    ∃ path, contract.IsRoute path id ∧ ∀ x ∈ path, x ∈ contract.effective roster selection := by
  let Routed (s : IdSet) : Prop := ∀ x ∈ s, ∃ path, contract.IsRoute path x ∧ ∀ y ∈ path, y ∈ s
  have hrouted : Routed (contract.effective roster selection) := by
    refine effective_induction (fun x hx => absurd hx (IdSet.not_mem_empty x)) ?_
    intro s target node _ hnode _ hunlocked hs x hx
    rcases IdSet.mem_insert.1 hx with rfl | hx
    · simp only [isUnlocked, Bool.and_eq_true, isReached_iff, id_of_node? hnode] at hunlocked
      rcases hunlocked.2 with hkind | ⟨source, hsource, hedge⟩
      · exact ⟨[x], .singleton hnode hkind, by simp⟩
      · obtain ⟨path, hpath, hin⟩ := hs source hsource
        refine ⟨path ++ [x], hpath.extend hedge, fun y hy => ?_⟩
        rcases List.mem_append.1 hy with hy | hy
        · exact IdSet.mem_insert.2 (.inr (hin y hy))
        · exact IdSet.mem_insert.2 (.inl (List.mem_singleton.1 hy))
    · obtain ⟨path, hpath, hin⟩ := hs x hx
      exact ⟨path, hpath, fun y hy => IdSet.mem_insert.2 (.inr (hin y hy))⟩
  exact hrouted id h

/-! ## The main statement -/

/-- **The ids in effect are the least fixed point** of "requested and unlocked": they are the requested
nodes that they unlock, every closed set contains them, and each ends a route from a start inside them. -/
theorem effective_isLeast (contract : Contract) (roster : Roster) (selection : Selection) :
    let effective := contract.effective roster selection
    (∀ id, id ∈ effective ↔
      id ∈ selection ∧ ∃ node, contract.node? id = some node ∧
        contract.isUnlocked roster node effective = true) ∧
    (∀ s, contract.IsClosed roster selection s → effective ⊆ s) ∧
    ∀ id ∈ effective, ∃ path, contract.IsRoute path id ∧ ∀ x ∈ path, x ∈ effective :=
  ⟨fun _ => mem_effective_iff, fun _ => effective_subset_of_isClosed, fun _ => exists_isRoute⟩

end Contract

end PerkGraph
