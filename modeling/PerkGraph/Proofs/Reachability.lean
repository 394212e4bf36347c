import Mathlib.Algebra.GroupWithZero.Nat
import Mathlib.Algebra.Order.BigOperators.Group.List
import Mathlib.Algebra.Order.Group.Nat
import PerkGraph.Proofs.DeadNodes

/-!
# What the search finds

The search for reachable ids finds the ids that routes lead to, and nothing else (`mem_reachable_iff`). It is shown
here turn by turn as well (`Search.turn?`): a queue of nodes, in which one node may wait several times, and the ids
seen so far. What is seen or waits was reached by a route, and an edge from what is seen leads to what is seen or
waits (`Search.IsSound`); so once nothing waits, the ids seen are those that routes lead to. That it comes to this
needs a bound: a turn takes one node from the queue, and what it puts there instead is paid by edges of a node not
seen before (`Search.load_lt`), so there are at most as many turns as there are starts and edges.

Without gates the ids in effect are the same when every node is requested, whatever the team
(`effective_eq_reachable`).
-/

namespace PerkGraph

namespace Contract

variable {contract : Contract}

/-! ## Routes -/

/-- What holds of every start and passes along edges holds where a route ends. -/
theorem IsRoute.induction {P : String → Prop} {path : List String} {target : String}
    (h : contract.IsRoute path target)
    (hstart : ∀ node, contract.node? node.id = some node → node.kind = .start → P node.id)
    (hedge : ∀ source target, contract.HasEdge source target → P source → P target) : P target := by
  obtain ⟨⟨node, hhead, hnode, hkind⟩, hchain, hends⟩ := h
  refine hchain.induction P path hedge (fun hne => ?_) target (List.mem_of_getLast? hends)
  rw [Option.some.inj ((List.head?_eq_some_head hne).symm.trans hhead)]
  exact hstart node hnode hkind

/-- **The search finds the ids that routes lead to.** -/
theorem mem_reachable_iff {id : String} :
    id ∈ contract.reachable ↔ ∃ path, contract.IsRoute path id := by
  constructor
  · refine explore_induction (P := fun id => ∃ path, contract.IsRoute path id)
      (fun source target hedge hroute => ?_) (fun id hid => ?_)
      (fun id hid => absurd hid (IdSet.not_mem_empty id)) id
    · obtain ⟨path, hpath⟩ := hroute
      exact ⟨path ++ [target], hpath.extend hedge⟩
    · obtain ⟨node, hnode, hkind⟩ := mem_starts.1 hid
      exact ⟨[id], .singleton hnode hkind⟩
  · rintro ⟨path, hpath⟩
    exact hpath.induction (P := (· ∈ contract.reachable))
      (fun node hnode hkind => mem_reachable_of_start hnode hkind)
      fun source target hedge hsource => mem_reachable_of_hasEdge hsource hedge

/-! ## Turn by turn -/

/-- A search under way. -/
structure Search where
  /-- The nodes that wait for their turn. -/
  queue : List Node
  seen : IdSet

/-- The nodes that the edges of a node lead to, as listed. -/
def successors (contract : Contract) (node : Node) : List Node :=
  node.connections.filterMap contract.node?

/-- How many edges start from nodes that are not among the given ids. -/
def edgesBeyond (contract : Contract) (seen : IdSet) : Nat :=
  (contract.nodes.map fun node => if node.id ∈ seen then 0 else node.connections.length).sum

theorem mem_successors {node next : Node} :
    next ∈ contract.successors node ↔ next ∈ contract.nodes ∧ next.id ∈ node.connections := by
  simp only [successors, List.mem_filterMap, node?_eq_some_iff]
  constructor
  · rintro ⟨id, hid, hmem, rfl⟩
    exact ⟨hmem, hid⟩
  · rintro ⟨hmem, hid⟩
    exact ⟨next.id, hid, hmem, rfl⟩

/-- The edges of a node are no longer counted once it is seen. -/
theorem edgesBeyond_insert_add_le {seen : IdSet} {node : Node} (hmem : node ∈ contract.nodes)
    (hunseen : node.id ∉ seen) :
    contract.edgesBeyond (seen.insert node.id) + node.connections.length ≤
      contract.edgesBeyond seen := by
  obtain ⟨before, after, hsplit⟩ := List.append_of_mem hmem
  have hle (nodes : List Node) :
      (nodes.map fun node' =>
        if node'.id ∈ seen.insert node.id then 0 else node'.connections.length).sum ≤
      (nodes.map fun node' => if node'.id ∈ seen then 0 else node'.connections.length).sum := by
    refine List.sum_le_sum fun other _ => ?_
    by_cases hother : other.id ∈ seen
    · rw [if_pos (IdSet.mem_insert.2 (.inr hother))]
      exact Nat.zero_le _
    · rw [if_neg hother]
      split
      · exact Nat.zero_le _
      · exact Nat.le_refl _
  have hbefore := hle before
  have hafter := hle after
  simp only [edgesBeyond, hsplit, List.map_append, List.map_cons, List.sum_append, List.sum_cons,
    if_neg hunseen, if_pos (IdSet.mem_insert.2 (.inl rfl) : node.id ∈ seen.insert node.id)]
  omega

namespace Search

/-- A search begins with the starts. -/
def begin (contract : Contract) : Search where
  queue := contract.nodes.filter fun node => node.kind = .start
  seen := .empty

/-- The next turn, if a node waits for it: a node seen before is passed over, and of one that was not, the nodes
that its edges lead to are put behind the others, except those seen by then. -/
def turn? (contract : Contract) (search : Search) : Option Search :=
  match search.queue with
  | [] => none
  | node :: rest =>
    if node.id ∈ search.seen then some { search with queue := rest }
    else
      let seen := search.seen.insert node.id
      some { queue := rest ++ (contract.successors node).filter fun next => next.id ∉ seen, seen }

/-- The search ends after so many turns, with these ids seen. -/
inductive Ends (contract : Contract) : Search → Nat → IdSet → Prop
  | done {search : Search} (h : search.turn? contract = none) : Ends contract search 0 search.seen
  | turn {search next : Search} {turns : Nat} {found : IdSet}
      (h : search.turn? contract = some next) (hrest : Ends contract next turns found) :
      Ends contract search (turns + 1) found

/-- The id is seen, or a node of this id waits. -/
def Knows (search : Search) (id : String) : Prop :=
  id ∈ search.seen ∨ ∃ node ∈ search.queue, node.id = id

/-- The invariant of the search. -/
structure IsSound (contract : Contract) (search : Search) : Prop where
  waiting : ∀ node ∈ search.queue, node ∈ contract.nodes ∧ ∃ path, contract.IsRoute path node.id
  seen : ∀ id ∈ search.seen, ∃ path, contract.IsRoute path id
  starts : ∀ node ∈ contract.nodes, node.kind = .start → search.Knows node.id
  edges : ∀ source ∈ search.seen, ∀ target, contract.HasEdge source target → search.Knows target

/-- How many turns may still come. -/
def load (contract : Contract) (search : Search) : Nat :=
  search.queue.length + contract.edgesBeyond search.seen

variable {search next : Search}

theorem turn?_eq_none_iff : search.turn? contract = none ↔ search.queue = [] := by
  unfold turn?
  split
  · rename_i hqueue
    simp [hqueue]
  · rename_i hqueue
    rw [hqueue]
    split <;> simp

theorem turn?_eq_some_iff : search.turn? contract = some next ↔
    ∃ node rest, search.queue = node :: rest ∧
      (node.id ∈ search.seen ∧ next = { search with queue := rest } ∨
        node.id ∉ search.seen ∧ next.seen = search.seen.insert node.id ∧
          next.queue = rest ++ (contract.successors node).filter fun other => other.id ∉ next.seen) := by
  obtain ⟨queue, seen⟩ := search
  obtain ⟨nextQueue, nextSeen⟩ := next
  cases queue with
  | nil => simp [turn?]
  | cons node rest =>
    by_cases hseen : node.id ∈ seen
    · simp [turn?, hseen, eq_comm]
    · simp only [turn?, hseen, if_false, Option.some.injEq, Search.mk.injEq, List.cons.injEq]
      constructor
      · rintro ⟨rfl, rfl⟩
        exact ⟨node, rest, ⟨rfl, rfl⟩, .inr ⟨hseen, rfl, rfl⟩⟩
      · rintro ⟨_, _, ⟨rfl, rfl⟩, ⟨h, -⟩ | ⟨-, hnextSeen, hnextQueue⟩⟩
        · exact absurd h hseen
        · exact ⟨by rw [hnextQueue, hnextSeen], hnextSeen.symm⟩

section Turn

variable (h : search.turn? contract = some next)
include h

theorem Knows.turn {id : String} (hid : search.Knows id) : next.Knows id := by
  obtain ⟨node, rest, hqueue, ⟨hseen, rfl⟩ | ⟨hunseen, hseen, hnext⟩⟩ := turn?_eq_some_iff.1 h
  · rcases hid with hid | ⟨other, hother, rfl⟩
    · exact .inl hid
    · rw [hqueue] at hother
      rcases List.mem_cons.1 hother with rfl | hrest
      · exact .inl hseen
      · exact .inr ⟨other, hrest, rfl⟩
  · rcases hid with hid | ⟨other, hother, rfl⟩
    · exact .inl (hseen ▸ IdSet.mem_insert.2 (.inr hid))
    · rw [hqueue] at hother
      rcases List.mem_cons.1 hother with rfl | hrest
      · exact .inl (hseen ▸ IdSet.mem_insert.2 (.inl rfl))
      · exact .inr ⟨other, hnext ▸ List.mem_append_left _ hrest, rfl⟩

/-- One turn keeps the invariant. -/
theorem IsSound.turn (hsound : search.IsSound contract) : next.IsSound contract := by
  have hknows {id : String} (hid : search.Knows id) : next.Knows id := hid.turn h
  obtain ⟨node, rest, hqueue, ⟨-, rfl⟩ | ⟨-, hseen, hnext⟩⟩ := turn?_eq_some_iff.1 h
  · refine ⟨fun other hother => ?_, hsound.seen, fun other hmem hkind => ?_,
      fun source hsource target hedge => ?_⟩
    · exact hsound.waiting other (hqueue ▸ List.mem_cons_of_mem _ hother)
    · exact hknows (hsound.starts other hmem hkind)
    · exact hknows (hsound.edges source hsource target hedge)
  · obtain ⟨hmem, path, hpath⟩ := hsound.waiting node (hqueue ▸ List.mem_cons_self)
    refine ⟨fun other hother => ?_, fun id hid => ?_, fun other hother hkind => ?_,
      fun source hsource target hedge => ?_⟩
    · rw [hnext] at hother
      rcases List.mem_append.1 hother with hrest | hfound
      · exact hsound.waiting other (hqueue ▸ List.mem_cons_of_mem _ hrest)
      · obtain ⟨hother, hlisted⟩ := mem_successors.1 (List.mem_filter.1 hfound).1
        exact ⟨hother, _, hpath.extend ⟨node, node?_of_mem hmem, hlisted⟩⟩
    · rw [hseen] at hid
      rcases IdSet.mem_insert.1 hid with rfl | hid
      · exact ⟨path, hpath⟩
      · exact hsound.seen id hid
    · exact hknows (hsound.starts other hother hkind)
    · rw [hseen] at hsource
      rcases IdSet.mem_insert.1 hsource with rfl | hsource
      · -- an edge of the node whose turn it was: what it leads to is seen by now, or it waits
        obtain ⟨found, hfound, hlisted⟩ := hedge
        cases (node?_of_mem hmem).symm.trans hfound
        obtain ⟨other, hother, rfl⟩ := contract.closed node hmem target hlisted
        by_cases hin : other.id ∈ next.seen
        · exact .inl hin
        · refine .inr ⟨other, ?_, rfl⟩
          rw [hnext]
          refine List.mem_append_right _ (List.mem_filter.2 ⟨?_, decide_eq_true hin⟩)
          exact mem_successors.2 ⟨hother, hlisted⟩
      · exact hknows (hsound.edges source hsource target hedge)

theorem load_lt (hsound : search.IsSound contract) : next.load contract < search.load contract := by
  obtain ⟨node, rest, hqueue, ⟨-, rfl⟩ | ⟨hunseen, hseen, hnext⟩⟩ := turn?_eq_some_iff.1 h
  · simp only [load, hqueue, List.length_cons]
    omega
  · obtain ⟨hmem, -⟩ := hsound.waiting node (hqueue ▸ List.mem_cons_self)
    have hpaid := edgesBeyond_insert_add_le hmem hunseen
    have hsuccessors : (contract.successors node).length ≤ node.connections.length :=
      List.length_filterMap_le _ _
    have hadded : next.queue.length ≤ rest.length + (contract.successors node).length := by
      rw [hnext, List.length_append]
      exact Nat.add_le_add_left (List.length_filter_le _ _) _
    simp only [load, hqueue, hseen, List.length_cons]
    omega

end Turn

theorem begin_isSound (contract : Contract) : (begin contract).IsSound contract := by
  have hqueue {node : Node} :
      node ∈ (begin contract).queue ↔ node ∈ contract.nodes ∧ node.kind = .start := by
    simp [begin]
  refine ⟨fun node hnode => ?_, fun id hid => absurd hid (IdSet.not_mem_empty id),
    fun node hmem hkind => .inr ⟨node, hqueue.2 ⟨hmem, hkind⟩, rfl⟩,
    fun source hsource => absurd hsource (IdSet.not_mem_empty source)⟩
  obtain ⟨hmem, hkind⟩ := hqueue.1 hnode
  exact ⟨hmem, [node.id], .singleton (node?_of_mem hmem) hkind⟩

theorem load_begin (contract : Contract) :
    (begin contract).load contract =
      contract.starts.length + (contract.nodes.map fun node => node.connections.length).sum := by
  simp [load, begin, starts, edgesBeyond, IdSet.not_mem_empty]

/-- When nothing waits any more, the ids seen are those that routes lead to. -/
theorem IsSound.seen_eq (h : search.IsSound contract) (hqueue : search.queue = []) :
    search.seen = contract.reachable := by
  have hseen {id : String} (hid : search.Knows id) : id ∈ search.seen := by
    refine hid.resolve_right ?_
    rintro ⟨node, hnode, -⟩
    rw [hqueue] at hnode
    cases hnode
  refine IdSet.ext fun id => ?_
  rw [mem_reachable_iff]
  constructor
  · exact h.seen id
  · rintro ⟨path, hpath⟩
    exact hpath.induction (P := (· ∈ search.seen))
      (fun node hnode hkind => hseen (h.starts node (mem_of_node? hnode) hkind))
      fun source target hedge hsource => hseen (h.edges source hsource target hedge)

/-- A sound search ends, within its load. -/
theorem IsSound.exists_ends (hsound : search.IsSound contract) :
    ∃ turns ≤ search.load contract, Ends contract search turns contract.reachable := by
  induction hload : search.load contract using Nat.strongRecOn generalizing search with
  | ind load ih =>
    cases hturn : search.turn? contract with
    | none =>
      have hends : Ends contract search 0 search.seen := .done hturn
      rw [hsound.seen_eq (turn?_eq_none_iff.1 hturn)] at hends
      exact ⟨0, Nat.zero_le _, hends⟩
    | some next =>
      have hless : next.load contract < load := hload ▸ load_lt hturn hsound
      obtain ⟨turns, hle, hends⟩ := ih (next.load contract) hless (hsound.turn hturn) rfl
      exact ⟨turns + 1, by omega, .turn hturn hends⟩

end Search

/-! ## Contracts without gates -/

/-- Without gates every node with a route to it is in effect, if all nodes are requested. -/
theorem effective_eq_reachable {roster : Roster} {selection : Selection}
    (hgates : ∀ node ∈ contract.nodes, node.kind ≠ .gate)
    (hall : ∀ node ∈ contract.nodes, node.id ∈ selection) :
    contract.effective roster selection = contract.reachable := by
  have hin {node : Node} (hnode : contract.node? node.id = some node)
      (hreached : contract.isReached node (contract.effective roster selection) = true) :
      node.id ∈ contract.effective roster selection := by
    have hmem := mem_of_node? hnode
    have hopen : isOpen roster node (contract.effective roster selection) = true := by
      rw [isOpen, if_neg (hgates node hmem)]
    refine effective_isClosed node.id (hall node hmem) node hnode ?_
    rw [isUnlocked, hopen, hreached, Bool.and_self]
  refine IdSet.subset_antisymm effective_subset_reachable fun id hid => ?_
  obtain ⟨path, hpath⟩ := mem_reachable_iff.1 hid
  refine hpath.induction (P := (· ∈ contract.effective roster selection))
    (fun node hnode hkind => hin hnode (isReached_iff.2 (.inl hkind))) fun source target hedge hsource => ?_
  obtain ⟨node, hnode⟩ := hedge.exists_node
  obtain rfl := id_of_node? hnode
  exact hin hnode (isReached_iff.2 (.inr ⟨source, hsource, hedge⟩))

/-! ## The main statement -/

/-- **The search is exact.** It finds the ids that some route of edges from a start leads to, a start itself
included; node by node it ends after at most as many turns as there are starts and edges, with these ids seen; and
in a contract without gates they are the ids in effect when all nodes are requested, for every team. -/
theorem reachable_isExact (contract : Contract) :
    (∀ id, id ∈ contract.reachable ↔ ∃ path, contract.IsRoute path id) ∧
    (∃ turns ≤ contract.starts.length + (contract.nodes.map fun node => node.connections.length).sum,
      (Search.begin contract).Ends contract turns contract.reachable) ∧
    ((∀ node ∈ contract.nodes, node.kind ≠ .gate) → ∀ roster selection,
      (∀ node ∈ contract.nodes, node.id ∈ selection) →
        contract.effective roster selection = contract.reachable) := by
  refine ⟨fun id => mem_reachable_iff, ?_, fun hgates roster selection hall =>
    effective_eq_reachable hgates hall⟩
  rw [← Search.load_begin]
  exact (Search.begin_isSound contract).exists_ends

end Contract

end PerkGraph
