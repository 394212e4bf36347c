import PerkGraph.Proofs.Findings
import PerkGraph.Proofs.WhatIf

/-!
# Findings that rule a node out

Some findings of a validation say that a node is closed for good: no start leads to it, its rule asks for
more nodes than it lists, or it is a gate whose rule is missing or cannot be read. Validation looks at the
contract alone; here it is shown that no team and no selection ever prove it wrong (`findings_rule_out`).

The search for reachable ids keeps one invariant: an edge from a seen id leads to an id that is seen or waits
in the queue (`explore_closed`). When the queue is empty, the seen ids hold every start and whatever edges
lead to from them, so they hold the ids in effect, which grow along edges from starts
(`effective_subset_reachable`). They hold nothing else: what is seen or waits has come there along edges
(`explore_induction`).
-/

namespace PerkGraph

namespace Contract

variable {contract : Contract} {roster : Roster} {selection : Selection}

/-! ## Reachable ids -/

theorem HasEdge.exists_node {source target : String} (h : contract.HasEdge source target) :
    ∃ node, contract.node? target = some node := by
  obtain ⟨node, hnode, hedge⟩ := h
  obtain ⟨other, hmem, hid⟩ := contract.closed node (mem_of_node? hnode) target hedge
  exact ⟨other, node?_eq_some_iff.2 ⟨hmem, hid⟩⟩

section Explore

variable {queue : List String} {seen : IdSet} {id : String}

theorem mem_explore_of_mem_seen (h : id ∈ seen) : id ∈ contract.explore queue seen := by
  fun_induction contract.explore queue seen with
  | case1 => exact h
  | case2 _ _ _ _ ih => exact ih h
  | case3 _ _ _ _ _ ih => exact ih h
  | case4 _ _ _ _ _ _ ih => exact ih (IdSet.mem_insert.2 (.inr h))

theorem mem_explore_of_mem_queue {node : Node} (hnode : contract.node? id = some node)
    (h : id ∈ queue) : id ∈ contract.explore queue seen := by
  fun_induction contract.explore queue seen with
  | case1 => simp at h
  | case2 seen first rest hseen ih =>
    rcases List.mem_cons.1 h with rfl | hrest
    · exact mem_explore_of_mem_seen hseen
    · exact ih hrest
  | case3 seen first rest _ hnone ih =>
    rcases List.mem_cons.1 h with rfl | hrest
    · cases hnode.symm.trans hnone
    · exact ih hrest
  | case4 seen first rest _ found _ ih =>
    rcases List.mem_cons.1 h with rfl | hrest
    · exact mem_explore_of_mem_seen (IdSet.mem_insert.2 (.inl rfl))
    · exact ih (List.mem_append_left _ hrest)

/-- **The invariant of the search**: edges from what is seen lead to what is seen or queued. -/
theorem explore_closed
    (h : ∀ source ∈ seen, ∀ target, contract.HasEdge source target →
      target ∈ seen ∨ target ∈ queue) :
    ∀ source ∈ contract.explore queue seen, ∀ target, contract.HasEdge source target →
      target ∈ contract.explore queue seen := by
  fun_induction contract.explore queue seen with
  | case1 seen =>
    intro source hsource target hedge
    exact (h source hsource target hedge).resolve_right List.not_mem_nil
  | case2 seen first rest hseen ih =>
    refine ih fun source hsource target hedge => ?_
    rcases h source hsource target hedge with htarget | htarget
    · exact .inl htarget
    · rcases List.mem_cons.1 htarget with rfl | hrest
      · exact .inl hseen
      · exact .inr hrest
  | case3 seen first rest _ hnone ih =>
    refine ih fun source hsource target hedge => (h source hsource target hedge).imp_right ?_
    intro htarget
    rcases List.mem_cons.1 htarget with rfl | hrest
    · -- an edge leads to a node, and this id names none
      obtain ⟨node, hnode⟩ := hedge.exists_node
      cases hnode.symm.trans hnone
    · exact hrest
  | case4 seen first rest _ found hfound ih =>
    refine ih fun source hsource target hedge => ?_
    rcases IdSet.mem_insert.1 hsource with rfl | hsource
    · obtain ⟨node, hnode, htarget⟩ := hedge
      cases hfound.symm.trans hnode
      exact .inr (List.mem_append_right _ htarget)
    · rcases h source hsource target hedge with htarget | htarget
      · exact .inl (IdSet.mem_insert.2 (.inr htarget))
      · rcases List.mem_cons.1 htarget with rfl | hrest
        · exact .inl (IdSet.mem_insert.2 (.inl rfl))
        · exact .inr (List.mem_append_left _ hrest)

/-- What holds of the seen and the queued ids and passes along edges holds of all that is found. -/
theorem explore_induction {P : String → Prop}
    (hedge : ∀ source target, contract.HasEdge source target → P source → P target)
    (hqueue : ∀ id ∈ queue, P id) (hseen : ∀ id ∈ seen, P id) :
    ∀ id ∈ contract.explore queue seen, P id := by
  fun_induction contract.explore queue seen with
  | case1 => exact hseen
  | case2 _ _ _ _ ih => exact ih (fun id hid => hqueue id (List.mem_cons_of_mem _ hid)) hseen
  | case3 _ _ _ _ _ ih => exact ih (fun id hid => hqueue id (List.mem_cons_of_mem _ hid)) hseen
  | case4 seen first rest _ node hnode ih =>
    have hfirst : P first := hqueue first List.mem_cons_self
    refine ih (fun id hid => ?_) fun id hid => ?_
    · rcases List.mem_append.1 hid with hrest | htarget
      · exact hqueue id (List.mem_cons_of_mem _ hrest)
      · exact hedge first id ⟨node, hnode, htarget⟩ hfirst
    · rcases IdSet.mem_insert.1 hid with rfl | hid
      · exact hfirst
      · exact hseen id hid

end Explore

theorem mem_starts {id : String} :
    id ∈ contract.starts ↔ ∃ node, contract.node? id = some node ∧ node.kind = .start := by
  simp only [starts, List.mem_map, List.mem_filter, decide_eq_true_eq, node?_eq_some_iff]
  constructor
  · rintro ⟨node, ⟨hmem, hkind⟩, hid⟩
    exact ⟨node, ⟨hmem, hid⟩, hkind⟩
  · rintro ⟨node, ⟨hmem, hid⟩, hkind⟩
    exact ⟨node, ⟨hmem, hkind⟩, hid⟩

theorem mem_reachable_of_start {id : String} {node : Node} (hnode : contract.node? id = some node)
    (hkind : node.kind = .start) : id ∈ contract.reachable :=
  mem_explore_of_mem_queue hnode (mem_starts.2 ⟨node, hnode, hkind⟩)

theorem mem_reachable_of_hasEdge {source target : String} (h : source ∈ contract.reachable)
    (hedge : contract.HasEdge source target) : target ∈ contract.reachable :=
  explore_closed (fun x hx => absurd hx (IdSet.not_mem_empty x)) source h target hedge

/-- A reachable id is that of a start, or an edge leads to it. -/
theorem start_or_hasEdge_of_mem_reachable {id : String} (h : id ∈ contract.reachable) :
    id ∈ contract.starts ∨ ∃ source, contract.HasEdge source id :=
  explore_induction (P := fun id => id ∈ contract.starts ∨ ∃ source, contract.HasEdge source id)
    (fun source _ hedge _ => .inr ⟨source, hedge⟩) (fun _ => .inl)
    (fun x hx => absurd hx (IdSet.not_mem_empty x)) id h

/-- What is reached from reachable ids is reachable. -/
theorem mem_reachable_of_isReached {s : IdSet} {id : String} {node : Node}
    (hs : s ⊆ contract.reachable) (hnode : contract.node? id = some node)
    (h : contract.isReached node s = true) : id ∈ contract.reachable := by
  obtain rfl := id_of_node? hnode
  rcases isReached_iff.1 h with hkind | ⟨source, hsource, hedge⟩
  · exact mem_reachable_of_start hnode hkind
  · exact mem_reachable_of_hasEdge (hs source hsource) hedge

theorem effective_subset_reachable : contract.effective roster selection ⊆ contract.reachable := by
  refine effective_induction (P := (· ⊆ contract.reachable)) (IdSet.empty_subset _) ?_
  intro s id node _ hnode _ hunlocked hs x hx
  simp only [isUnlocked, Bool.and_eq_true] at hunlocked
  rcases IdSet.mem_insert.1 hx with rfl | hx
  · exact mem_reachable_of_isReached hs hnode hunlocked.2
  · exact hs x hx

/-! ## Dead nodes -/

/-- The node is closed for good: never in effect, and unavailable to every team and selection. -/
def IsDead (contract : Contract) (id : String) : Prop :=
  ∀ roster selection, id ∉ contract.effective roster selection ∧
    ∀ state, (id, state) ∈ contract.availability roster selection ↔ state = .unavailable

section IsDead

variable {id : String} {node : Node}

theorem isDead_of_isUnlocked_eq_false (hnode : contract.node? id = some node)
    (h : ∀ roster selection,
      contract.isUnlocked roster node (contract.effective roster selection) = false) :
    contract.IsDead id := by
  intro roster selection
  have hout : id ∉ contract.effective roster selection := by
    intro hin
    obtain ⟨-, other, hother, hunlocked⟩ := mem_effective_iff.1 hin
    cases hnode.symm.trans hother
    cases (h roster selection).symm.trans hunlocked
  have hstate : contract.stateOf roster (contract.effective roster selection) node = .unavailable :=
    (stateOf_eq_iff _ node .unavailable).2 ⟨id_of_node? hnode ▸ hout, h roster selection⟩
  refine ⟨hout, fun state => ⟨fun hmem => ?_, ?_⟩⟩
  · obtain ⟨other, hother, rfl⟩ := mem_availability.1 hmem
    cases hnode.symm.trans hother
    exact hstate
  · rintro rfl
    exact mem_availability.2 ⟨node, hnode, hstate⟩

/-- No edges lead to a node that the search does not find. -/
theorem isDead_of_not_mem_reachable (hnode : contract.node? id = some node)
    (h : id ∉ contract.reachable) : contract.IsDead id := by
  refine isDead_of_isUnlocked_eq_false hnode fun roster selection => ?_
  rw [isUnlocked, Bool.and_eq_false_iff, ← Bool.not_eq_true, ← Bool.not_eq_true]
  exact .inr fun hreached => h (mem_reachable_of_isReached effective_subset_reachable hnode hreached)

/-- A gate is only ever opened by the rule that its text denotes. -/
theorem isDead_of_gate (hnode : contract.node? id = some node) (hkind : node.kind = .gate)
    (h : ∀ rule, node.gateRule = some (.ok rule) → ∀ roster s, rule.holds roster s = false) :
    contract.IsDead id := by
  refine isDead_of_isUnlocked_eq_false hnode fun roster selection => ?_
  rw [isUnlocked, Bool.and_eq_false_iff]
  left
  unfold isOpen
  rw [if_pos hkind, Node.activeGate, if_pos hkind]
  split
  · rename_i rule hrule
    exact h rule hrule roster _
  · rfl

end IsDead

end Contract

/-! ## Findings -/

/-- The node that a caution says can never be in effect. -/
def Caution.ruledOut? : Caution → Option String
  | .thresholdTooHigh node _ _ => some node
  | .unreachable node => some node
  | .gateIgnored _ _ _ | .edgesFromEnd _ => none

/-- The node that a defect says can never be in effect. -/
def Defect.ruledOut? : Defect → Option String
  | .gateWithoutRule node => some node
  | .badGate node _ _ => some node
  | .noStart | .badEffect _ _ _ _ | .effectsOnGate _ | .unknownGateNode _ _ => none

/-- A rule that asks for more nodes than it lists never holds. -/
theorem GateRule.holds_eq_false_of_size_lt {rule : GateRule} {ids s : IdSet} {roster : Roster}
    (hdemand : rule.demand = .nodes ids) (h : ids.size < rule.threshold) :
    rule.holds roster s = false := by
  have hhits : (ids.filter (· ∈ s)).size ≤ ids.size := ids.size_filter_le _
  rw [← Bool.not_eq_true, holds_nodes_iff hdemand, if_neg (by omega)]
  omega

namespace Contract

/-- **What validation rules out stays out.** A node that no start leads to, a gate that asks for more nodes
than it lists and a gate without a rule that can be read are in effect in no session and unavailable in all;
so is every node of a contract without a start. -/
theorem findings_rule_out (contract : Contract) :
    (∀ caution ∈ contract.validate.warnings, ∀ id, caution.ruledOut? = some id →
      contract.IsDead id) ∧
    (∀ defect ∈ contract.validate.errors, ∀ id, defect.ruledOut? = some id → contract.IsDead id) ∧
    (.noStart ∈ contract.validate.errors → ∀ node ∈ contract.nodes, contract.IsDead node.id) := by
  refine ⟨fun caution hcaution id hout => ?_, fun defect hdefect id hout => ?_,
    fun hdefect node hmem => ?_⟩
  · cases mem_warnings_iff.1 hcaution with
    | gateIgnored => cases hout
    | edgesFromEnd => cases hout
    | @thresholdTooHigh node rule ids hmem hkind hrule hdemand hhigh =>
      cases hout
      refine isDead_of_gate (node?_of_mem hmem) hkind fun other hother roster s => ?_
      cases hrule.symm.trans hother
      exact GateRule.holds_eq_false_of_size_lt hdemand hhigh
    | @unreachable node hmem hunreached =>
      cases hout
      exact isDead_of_not_mem_reachable (node?_of_mem hmem) hunreached
  · cases mem_errors_iff.1 hdefect with
    | noStart => cases hout
    | badEffect => cases hout
    | effectsOnGate => cases hout
    | unknownGateNode => cases hout
    | @gateWithoutRule node hmem hkind hgate =>
      cases hout
      refine isDead_of_gate (node?_of_mem hmem) hkind fun rule hrule => ?_
      cases (Node.gateRule_eq_none_iff.2 hgate).symm.trans hrule
    | @badGate node raw error hmem hkind hgate hread =>
      cases hout
      refine isDead_of_gate (node?_of_mem hmem) hkind fun rule hrule => ?_
      cases (Node.gateRule_eq_some_iff.2 ⟨raw, hgate, hread⟩).symm.trans hrule
  · cases mem_errors_iff.1 hdefect with
    | noStart hnone =>
      -- without a start the search has nothing to begin with
      refine isDead_of_not_mem_reachable (node?_of_mem hmem) ?_
      rw [reachable, starts_eq_nil_iff.2 hnone, explore]
      exact IdSet.not_mem_empty _

/-- A node that nothing leads to, a gate without a rule, one whose threshold is no number and one that asks for
more than it lists; and two nodes that lead to each other in a contract without a start. -/
theorem findings_rule_out_each :
    let attic : Node := .ofRecord { id := "attic", connections := ["start"] }
    let vault : Node := .ofRecord { id := "vault", kind := .gate, gate := some "Node:start;2" }
    let contract : Contract :=
      { name := "heist"
        nodes :=
          [attic, .ofRecord { id := "door", kind := .gate },
            .ofRecord { id := "hatch", kind := .gate, gate := some "Node:start;x" },
            .ofRecord { id := "start", kind := .start, connections := ["door", "hatch", "vault"] }, vault]
        ascending := by decide
        wellFormed := by decide
        closed := by decide }
    let circle : Contract :=
      { name := "circle"
        nodes :=
          [.ofRecord { id := "a", connections := ["b"] }, .ofRecord { id := "b", connections := ["a"] }]
        ascending := by decide
        wellFormed := by decide
        closed := by decide }
    contract.validate.errors =
      [.gateWithoutRule "door", .badGate "hatch" "Node:start;x" (.threshold "x")] ∧
    .unreachable "attic" ∈ contract.validate.warnings ∧
    .thresholdTooHigh "vault" 2 1 ∈ contract.validate.warnings ∧
    (contract.IsDead "door" ∧ contract.IsDead "hatch" ∧ contract.IsDead "attic" ∧
      contract.IsDead "vault") ∧
    circle.validate.errors = [.noStart] ∧ circle.IsDead "a" ∧ circle.IsDead "b" := by
  intro attic vault contract circle
  have hdefects : contract.validate.errors =
      [.gateWithoutRule "door", .badGate "hatch" "Node:start;x" (.threshold "x")] := by decide +kernel
  have hunreached : "attic" ∉ contract.reachable := by
    intro hmem
    rcases start_or_hasEdge_of_mem_reachable hmem with hstart | ⟨source, hedge⟩
    · exact absurd hstart (by decide)
    · have hnone : contract.predecessors "attic" = [] := by decide
      rw [← mem_predecessors, hnone] at hedge
      cases hedge
  have hisolated : contract.HasCaution (.unreachable attic.id) := .unreachable (by decide) hunreached
  have hattic : .unreachable "attic" ∈ contract.validate.warnings := mem_warnings_iff.2 hisolated
  have hrule : vault.gateRule = some (.ok { demand := .nodes (.ofList ["start"]), threshold := 2 }) := by
    decide +kernel
  have hgreedy : contract.HasCaution (.thresholdTooHigh vault.id 2 (IdSet.ofList ["start"]).size) :=
    .thresholdTooHigh (by decide) rfl hrule rfl (by decide)
  have hvault : .thresholdTooHigh "vault" 2 1 ∈ contract.validate.warnings := mem_warnings_iff.2 hgreedy
  obtain ⟨hwarnings, herrors, -⟩ := findings_rule_out contract
  rw [hdefects] at herrors
  have hdoor := herrors (.gateWithoutRule "door") (by simp) "door" rfl
  have hhatch := herrors (.badGate "hatch" "Node:start;x" (.threshold "x")) (by simp) "hatch" rfl
  have hstartless : circle.validate.errors = [.noStart] := by decide +kernel
  obtain ⟨-, -, hall⟩ := findings_rule_out circle
  have hcircle := hall (hstartless ▸ List.mem_singleton_self _)
  exact ⟨hdefects, hattic, hvault, ⟨hdoor, hhatch, hwarnings _ hattic _ rfl, hwarnings _ hvault _ rfl⟩,
    hstartless, hcircle _ (.head _), hcircle _ (.tail _ (.head _))⟩

end Contract

end PerkGraph
