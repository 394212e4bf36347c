import PerkGraph.Ascending
import PerkGraph.Node

/-! # Contracts

A contract is a graph of nodes. It is built from records (`Contract.build`), which fails on an id that is
malformed or repeated and on an edge that leads nowhere; a rule text that denotes nothing is no obstacle. What
the building checks is kept as proof in the type: nodes in ascending order of well-formed ids, every edge
leading to a node.
-/

namespace PerkGraph

/-- Why records make no contract. -/
inductive ContractError where
  | invalidNodeId (id : String)
  | duplicateNode (id : String)
  | danglingConnection (source target : String)
deriving DecidableEq

def ContractError.message : ContractError → String
  | invalidNodeId id => "invalid node id '" ++ id ++ "' (expected [A-Za-z0-9_-]+)"
  | duplicateNode id => "duplicate node id '" ++ id ++ "'"
  | danglingConnection source target =>
    "node '" ++ source ++ "' connects to unknown node '" ++ target ++ "'"

/-- A graph of nodes. -/
structure Contract where
  name : String
  /-- The nodes, in ascending order of their ids. -/
  nodes : List Node
  ascending : IsAscending Node.id nodes
  wellFormed : ∀ node ∈ nodes, isNodeId node.id = true
  closed : ∀ node ∈ nodes, ∀ target ∈ node.connections, ∃ other ∈ nodes, other.id = target

namespace Contract

theorem eq_of_nodes_eq {contract other : Contract} (hname : contract.name = other.name)
    (hnodes : contract.nodes = other.nodes) : contract = other := by
  obtain ⟨name, nodes, _, _, _⟩ := contract
  obtain ⟨otherName, otherNodes, _, _, _⟩ := other
  cases hname
  cases hnodes
  rfl

/-! ## Building -/

/-- The nodes of the records, on top of those already built. The first record whose id is malformed or taken
is the error. -/
def collect : List NodeRecord → List Node → Except ContractError (List Node)
  | [], built => .ok built
  | record :: rest, built =>
    if !isNodeId record.id then .error (.invalidNodeId record.id)
    else if built.any fun node => node.id == record.id then .error (.duplicateNode record.id)
    else collect rest (insertAscending Node.id (.ofRecord record) built)

/-- The first edge, by node and then as listed, that leads to no node. -/
def dangling? (nodes : List Node) : Option (String × String) :=
  nodes.findSome? fun node =>
    (node.connections.find? fun target => !nodes.any fun other => other.id == target).map
      fun target => (node.id, target)

theorem collect_invariant {records : List NodeRecord} {built nodes : List Node}
    (h : collect records built = .ok nodes) (hasc : IsAscending Node.id built)
    (hids : ∀ node ∈ built, isNodeId node.id = true) :
    IsAscending Node.id nodes ∧ ∀ node ∈ nodes, isNodeId node.id = true := by
  induction records generalizing built with
  | nil =>
    cases h
    exact ⟨hasc, hids⟩
  | cons record rest ih =>
    unfold collect at h
    split at h
    · cases h
    · rename_i hid
      split at h
      · cases h
      · refine ih h (isAscending_insertAscending _ hasc) fun node hnode => ?_
        rcases mem_of_mem_insertAscending hnode with rfl | hmem
        · simpa [Node.ofRecord] using hid
        · exact hids node hmem

theorem dangling?_eq_none_iff {nodes : List Node} :
    dangling? nodes = none ↔
      ∀ node ∈ nodes, ∀ target ∈ node.connections, ∃ other ∈ nodes, other.id = target := by
  simp [dangling?]

/-- The contract of a list of records. -/
def build (name : String) (records : List NodeRecord) : Except ContractError Contract :=
  match hc : collect records [] with
  | .error error => .error error
  | .ok nodes =>
    match hd : dangling? nodes with
    | some (source, target) => .error (.danglingConnection source target)
    | none =>
      have invariant := collect_invariant hc List.Pairwise.nil (by simp)
      .ok
        { name, nodes
          ascending := invariant.1
          wellFormed := invariant.2
          closed := dangling?_eq_none_iff.1 hd }

section Build

variable {name : String} {records : List NodeRecord} {nodes : List Node} {error : ContractError}

theorem collect_of_build {contract : Contract} (h : build name records = .ok contract) :
    collect records [] = .ok contract.nodes := by
  unfold build at h
  split at h
  · cases h
  · rename_i hcollect
    split at h
    · cases h
    · cases h
      exact hcollect

theorem name_of_build {contract : Contract} (h : build name records = .ok contract) :
    contract.name = name := by
  unfold build at h
  split at h
  · cases h
  · split at h
    · cases h
    · cases h
      rfl

theorem exists_build (hcollect : collect records [] = .ok nodes) (hclosed : dangling? nodes = none) :
    ∃ contract, build name records = .ok contract ∧ contract.nodes = nodes := by
  unfold build
  split
  · rename_i herror
    cases hcollect.symm.trans herror
  · rename_i found hfound
    cases hcollect.symm.trans hfound
    split
    · rename_i hdangling
      cases hclosed.symm.trans hdangling
    · exact ⟨_, rfl, rfl⟩

/-- A contract is built from any records that its nodes are collected from. -/
theorem build_of_collect {contract : Contract} (h : collect records [] = .ok contract.nodes) :
    build contract.name records = .ok contract := by
  have hclosed : dangling? contract.nodes = none := dangling?_eq_none_iff.2 contract.closed
  obtain ⟨other, hother, hnodes⟩ : ∃ other, build contract.name records = .ok other ∧
      other.nodes = contract.nodes := exists_build h hclosed
  rw [hother, eq_of_nodes_eq (name_of_build hother) hnodes]

theorem build_eq_error_iff :
    build name records = .error error ↔ collect records [] = .error error ∨
      ∃ nodes edge, collect records [] = .ok nodes ∧ dangling? nodes = some edge ∧
        error = .danglingConnection edge.1 edge.2 := by
  unfold build
  split
  · rename_i hcollect
    simp [hcollect]
  · rename_i nodes hcollect
    split
    · rename_i source target hdangling
      simp [hcollect, hdangling, eq_comm, -Prod.exists]
    · rename_i hclosed
      simp [hcollect, hclosed]

end Build

/-- The records of the nodes, in ascending order of their ids. -/
def records (contract : Contract) : List NodeRecord :=
  contract.nodes.map Node.toRecord

/-! ## Looking up -/

def node? (contract : Contract) (id : String) : Option Node :=
  contract.nodes.find? fun node => node.id == id

theorem id_of_node? {contract : Contract} {id : String} {node : Node}
    (h : contract.node? id = some node) : node.id = id := by
  simpa using List.find?_some h

theorem mem_of_node? {contract : Contract} {id : String} {node : Node}
    (h : contract.node? id = some node) : node ∈ contract.nodes :=
  List.mem_of_find?_eq_some h

/-- Looking up an id finds the node that bears it: ids are distinct. -/
theorem node?_eq_some_iff {contract : Contract} {id : String} {node : Node} :
    contract.node? id = some node ↔ node ∈ contract.nodes ∧ node.id = id := by
  refine ⟨fun h => ⟨mem_of_node? h, id_of_node? h⟩, ?_⟩
  rintro ⟨hmem, rfl⟩
  cases hfound : contract.node? node.id with
  | none => exact absurd (List.find?_eq_none.1 hfound node hmem) (by simp)
  | some other =>
    have hid := id_of_node? hfound
    rw [contract.ascending.eq_of_key_eq (mem_of_node? hfound) hmem hid]

theorem node?_of_mem {contract : Contract} {node : Node} (h : node ∈ contract.nodes) :
    contract.node? node.id = some node :=
  node?_eq_some_iff.2 ⟨h, rfl⟩

theorem node?_id {contract : Contract} {id : String} {node : Node}
    (h : contract.node? id = some node) : contract.node? node.id = some node := by
  rw [id_of_node? h, h]

def size (contract : Contract) : Nat :=
  contract.nodes.length

/-- The ids of the nodes with an edge to the given id, in ascending order. -/
def predecessors (contract : Contract) (id : String) : List String :=
  (contract.nodes.filter fun node => node.connections.contains id).map Node.id

def HasEdge (contract : Contract) (source target : String) : Prop :=
  ∃ node, contract.node? source = some node ∧ target ∈ node.connections

theorem mem_predecessors {contract : Contract} {source target : String} :
    source ∈ contract.predecessors target ↔ contract.HasEdge source target := by
  simp only [predecessors, List.mem_map, List.mem_filter, List.contains_iff_mem, HasEdge,
    node?_eq_some_iff]
  constructor
  · rintro ⟨node, ⟨hmem, hedge⟩, hid⟩
    exact ⟨node, ⟨hmem, hid⟩, hedge⟩
  · rintro ⟨node, ⟨hmem, hid⟩, hedge⟩
    exact ⟨node, ⟨hmem, hedge⟩, hid⟩

/-! ## Nodes left out -/

/-- The number of ids that nodes have and a set does not, each counted once. It bounds every loop that adds an
id of a node at each turn. -/
def missing (nodes : List Node) (ids : IdSet) : Nat :=
  ((IdSet.ofList (nodes.map Node.id)).filter fun id => id ∉ ids).size

/-- A larger set with one more id of a node leaves fewer out. -/
theorem missing_lt {nodes : List Node} {ids larger : IdSet} {node : Node} (hsub : ids ⊆ larger)
    (hmem : node ∈ nodes) (hout : node.id ∉ ids) (hin : node.id ∈ larger) :
    missing nodes larger < missing nodes ids := by
  let left := (IdSet.ofList (nodes.map Node.id)).filter fun id => id ∉ ids
  have hleft : node.id ∈ left := by
    simpa [left, hout] using ⟨node, hmem, rfl⟩
  have hfewer : (IdSet.ofList (nodes.map Node.id)).filter (fun id => id ∉ larger) =
      left.filter fun id => id ∉ larger := by
    ext id
    simp only [left, IdSet.mem_filter, decide_eq_true_eq]
    exact ⟨fun h => ⟨⟨h.1, fun hid => h.2 (hsub id hid)⟩, h.2⟩, fun h => ⟨h.1.1, h.2⟩⟩
  rw [missing, hfewer]
  exact IdSet.size_filter_lt hleft (by simp [hin])

end Contract

end PerkGraph
