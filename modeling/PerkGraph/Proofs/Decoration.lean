import PerkGraph.Proofs.SameOpening

/-!
# What selecting does not see

A contract says more than selecting looks at. Its name, the colors and the effects of its nodes, the gate texts
of nodes that are no gates, and the order and repetition of edges are decoration: contracts that agree, id by
id, on kinds, on where edges lead and on the rules of gates (`Contract.AgreesOnOpenings`) select alike, and so
does a contract decorated otherwise (`Contract.decorate`). Main statement: `Contract.selecting_ignores_effects`.
Ids may be compared one at a time because both contracts keep their nodes in ascending order
(`AgreesOnOpenings.opensLike`); for the same reason the lists of predecessors come out equal, and not only with
the same members (`OpensLike.predecessors_eq`).
-/

namespace PerkGraph

/-! ## Rules of gates -/

namespace Node

variable {node twin : Node}

theorem opening?_eq_some_iff {rule : GateRule} :
    node.opening? = some rule ↔ node.kind = .gate ∧ node.gateRule = some (.ok rule) := by
  unfold opening? activeGate
  by_cases hkind : node.kind = .gate
  · rcases node.gateRule with _ | _ | read <;> simp [hkind, Except.toOption]
  · simp [hkind]

/-- A gate text counts on a gate only, and only for the rule that it denotes. -/
theorem opening?_eq (hkind : node.kind = twin.kind) (hrule : node.kind = .gate →
    ∀ rule, node.gateRule = some (.ok rule) ↔ twin.gateRule = some (.ok rule)) :
    node.opening? = twin.opening? := by
  ext rule
  rw [opening?_eq_some_iff, opening?_eq_some_iff, ← hkind]
  exact and_congr_right fun hgate => hrule hgate rule

end Node

namespace Contract

/-! ## Agreement, id by id -/

/-- Two contracts agree on all that selecting looks at. They have nodes at the same ids, and two nodes at
one id are of one kind, have edges to the same ids and, if they are gates, have one rule or neither has one
that can be read. -/
structure AgreesOnOpenings (contract other : Contract) : Prop where
  ids_iff : ∀ id, (∃ node, contract.node? id = some node) ↔ ∃ twin, other.node? id = some twin
  kind_eq : ∀ id node twin, contract.node? id = some node → other.node? id = some twin →
    node.kind = twin.kind
  mem_connections_iff : ∀ id node twin, contract.node? id = some node → other.node? id = some twin →
    ∀ target, target ∈ node.connections ↔ target ∈ twin.connections
  rule_iff : ∀ id node twin, contract.node? id = some node → other.node? id = some twin →
    node.kind = .gate →
      ∀ rule, node.gateRule = some (.ok rule) ↔ twin.gateRule = some (.ok rule)

theorem mem_map_id {contract : Contract} {id : String} :
    id ∈ contract.nodes.map Node.id ↔ ∃ node, contract.node? id = some node := by
  simp only [List.mem_map, node?_eq_some_iff]

theorem isAscending_map_id (contract : Contract) : IsAscending id (contract.nodes.map Node.id) :=
  List.pairwise_map.2 contract.ascending

theorem isAscending_predecessors (contract : Contract) (target : String) :
    IsAscending id (contract.predecessors target) :=
  List.pairwise_map.2 (contract.ascending.filter _)

namespace AgreesOnOpenings

variable {contract other : Contract}

theorem map_id_eq (h : contract.AgreesOnOpenings other) :
    contract.nodes.map Node.id = other.nodes.map Node.id := by
  refine contract.isAscending_map_id.ext_mem other.isAscending_map_id fun id => ?_
  rw [mem_map_id, mem_map_id]
  exact h.ids_iff id

theorem node_opensLike (h : contract.AgreesOnOpenings other) {node twin : Node}
    (hnode : node ∈ contract.nodes) (htwin : twin ∈ other.nodes) (hid : node.id = twin.id) :
    node.OpensLike twin := by
  have hfound := node?_of_mem hnode
  have hother : other.node? node.id = some twin := node?_eq_some_iff.2 ⟨htwin, hid.symm⟩
  have hkind := h.kind_eq _ _ _ hfound hother
  exact ⟨hid, hkind, Node.opening?_eq hkind (h.rule_iff _ _ _ hfound hother),
    h.mem_connections_iff _ _ _ hfound hother⟩

/-- **Ids may be compared one at a time**: what agrees id by id pairs up node by node. -/
theorem opensLike (h : contract.AgreesOnOpenings other) : contract.OpensLike other := by
  have hids := h.map_id_eq
  rw [← List.forall₂_eq_eq_eq, List.forall₂_map_left_iff, List.forall₂_map_right_iff] at hids
  obtain ⟨hlength, hget⟩ := List.forall₂_iff_get.1 hids
  refine List.forall₂_iff_get.2 ⟨hlength, fun i hi hi' => ?_⟩
  exact h.node_opensLike (List.get_mem _ _) (List.get_mem _ _) (hget i hi hi')

end AgreesOnOpenings

namespace OpensLike

variable {contract other : Contract}

theorem node_opensLike (h : contract.OpensLike other) {id : String} {node twin : Node}
    (hnode : contract.node? id = some node) (htwin : other.node? id = some twin) :
    node.OpensLike twin := by
  obtain ⟨found, hfound, hlike⟩ := h.exists_twin hnode
  rwa [Option.some.inj (htwin.symm.trans hfound)]

/-- Pairing up node by node asks no more than agreement id by id. -/
theorem agreesOnOpenings (h : contract.OpensLike other) : contract.AgreesOnOpenings other where
  ids_iff id := by
    rw [← Option.ne_none_iff_exists', ← Option.ne_none_iff_exists', Ne, Ne, h.node?_eq_none_iff]
  kind_eq _ _ _ hnode htwin := (h.node_opensLike hnode htwin).kind_eq
  mem_connections_iff _ _ _ hnode htwin := (h.node_opensLike hnode htwin).mem_connections_iff
  rule_iff id node twin hnode htwin hgate rule := by
    have hlike := h.node_opensLike hnode htwin
    have hopening : node.opening? = some rule ↔ twin.opening? = some rule := by rw [hlike.opening_eq]
    rwa [Node.opening?_eq_some_iff, Node.opening?_eq_some_iff, ← hlike.kind_eq,
      and_iff_right hgate, and_iff_right hgate] at hopening

theorem predecessors_eq (h : contract.OpensLike other) (id : String) :
    contract.predecessors id = other.predecessors id := by
  refine (contract.isAscending_predecessors id).ext_mem (other.isAscending_predecessors id)
    fun source => ?_
  rw [mem_predecessors, mem_predecessors]
  exact h.hasEdge_iff

end OpensLike

end Contract

/-! ## Decoration -/

/-- What a node has besides what selecting looks at. A gate text is among it unless the node is a gate. -/
structure Decoration where
  color : NodeColor
  effect1 : Option RuleText
  effect2 : Option RuleText
  gate : Option RuleText
deriving DecidableEq

/-- The node with another decoration. A gate keeps its rule. -/
def Node.decorate (node : Node) (decoration : Decoration) : Node :=
  { node with
    color := decoration.color
    effect1 := decoration.effect1
    effect2 := decoration.effect2
    gate := if node.kind = .gate then node.gate else decoration.gate }

theorem Node.opensLike_decorate (node : Node) (decoration : Decoration) :
    node.OpensLike (node.decorate decoration) where
  id_eq := rfl
  kind_eq := rfl
  opening_eq := by
    refine opening?_eq rfl fun hgate rule => ?_
    simp only [gateRule, decorate, if_pos hgate]
  mem_connections_iff _ := Iff.rfl

namespace Contract

/-- The contract under another name and with other decorations of its nodes. -/
def decorate (contract : Contract) (name : String) (decorations : String → Decoration) : Contract where
  name
  nodes := contract.nodes.map fun node => node.decorate (decorations node.id)
  ascending := by
    unfold IsAscending
    rw [List.pairwise_map]
    exact contract.ascending
  wellFormed := by
    rw [List.forall_mem_map]
    exact contract.wellFormed
  closed := by
    rw [List.forall_mem_map]
    intro node hnode target htarget
    obtain ⟨other, hother, hid⟩ := contract.closed node hnode target htarget
    exact ⟨_, List.mem_map_of_mem hother, hid⟩

theorem opensLike_decorate (contract : Contract) (name : String) (decorations : String → Decoration) :
    contract.OpensLike (contract.decorate name decorations) := by
  refine List.forall₂_map_right_iff.2 (List.forall₂_same.2 fun node _ => ?_)
  exact node.opensLike_decorate _

/-! ## The main statement -/

/-- **Selecting does not see effects.** Contracts that agree on ids, kinds, targets of edges and rules of gates
have the same predecessors, the same ids in effect and the same states for every team and selection, and
every transition comes to the same in both. So no name, color or effect, and no gate text on a node that is no
gate, has any influence. -/
theorem selecting_ignores_effects (contract : Contract) :
    (∀ other, contract.AgreesOnOpenings other →
      (∀ id, contract.predecessors id = other.predecessors id) ∧
        ∀ roster, contract.SelectsLike roster other roster) ∧
    ∀ name decorations roster,
      contract.SelectsLike roster (contract.decorate name decorations) roster := by
  refine ⟨fun other h => ⟨h.opensLike.predecessors_eq, fun roster => ?_⟩,
    fun name decorations roster => ?_⟩
  · exact (h.opensLike.unlocksLike roster).selectsLike
  · exact ((contract.opensLike_decorate name decorations).unlocksLike roster).selectsLike

/-- A gate behind a start and a gate that never opens, told plainly and told with effects, with a repeated
edge, with the rule spelled otherwise and with a rule on the start that does not count. -/
theorem selecting_ignores_effects_reworded :
    let plain : Contract :=
      { name := "plain"
        nodes :=
          [.ofRecord { id := "gate", kind := .gate, gate := some "Node:start;1" },
            .ofRecord { id := "locked", kind := .gate },
            .ofRecord { id := "start", kind := .start, connections := ["gate", "locked"] }]
        ascending := by decide
        wellFormed := by decide
        closed := by decide }
    let ornate : Contract :=
      { name := "ornate"
        nodes :=
          [.ofRecord
              { id := "gate", kind := .gate, color := .red, effect1 := some "None;+;5;Money"
                gate := some " node : start ; 01 " },
            .ofRecord { id := "locked", kind := .gate, gate := some "Node:;1" },
            .ofRecord
              { id := "start", kind := .start, color := .blue, effect2 := some "None;*"
                gate := some "RunnerType:Face;1", connections := ["locked", "gate", "locked"] }]
        ascending := by decide
        wellFormed := by decide
        closed := by decide }
    plain.AgreesOnOpenings ornate ∧ plain.predecessors "locked" = ornate.predecessors "locked" ∧
      plain.SelectsLike .empty ornate .empty := by
  intro plain ornate
  have hopens : plain.OpensLike ornate := by
    refine .cons ⟨rfl, rfl, by decide +kernel, fun _ => by rfl⟩
      (.cons ⟨rfl, rfl, by decide +kernel, fun _ => by rfl⟩
        (.cons ⟨rfl, rfl, by decide +kernel, fun id => ?_⟩ .nil))
    grind [Node.ofRecord]
  have hagrees := hopens.agreesOnOpenings
  obtain ⟨hpredecessors, hselects⟩ := (plain.selecting_ignores_effects).1 ornate hagrees
  exact ⟨hagrees, hpredecessors "locked", hselects .empty⟩

end Contract

end PerkGraph
