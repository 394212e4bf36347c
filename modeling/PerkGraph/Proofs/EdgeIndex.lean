import Mathlib.Logic.Function.Basic
import PerkGraph.Contract

/-!
# The index of incoming edges

Who leads to a node need not be searched for each time: it can be noted for all nodes while a contract is built, edge
by edge, each source behind those already noted and none of them twice (`EdgeIndex.link`). An edge to an id without
an entry ends the noting.

What stands in the index after some of the edges is known at every step (`EdgeIndex.noted`), so the whole of it is
known in the end. Noting edges finds the same dangling edge as a search for one, and if there is none, it leaves
behind the predecessors of every node (`Contract.assemble_eq`).
-/

namespace PerkGraph

/-- The ids of the nodes with an edge to an id, for each id that has an entry. -/
abbrev EdgeIndex := String → Option (List String)

namespace EdgeIndex

/-! ## Noting edges -/

/-- An entry for each known id, and nothing noted yet. -/
def start (known : String → Bool) : EdgeIndex := fun id =>
  if known id then some [] else none

/-- Notes an edge, unless there is one between the same nodes already. -/
def link (source : String) (index : EdgeIndex) (target : String) : Except ContractError EdgeIndex :=
  match index target with
  | none => .error (.danglingConnection source target)
  | some incoming =>
    .ok (if incoming.contains source then index
      else Function.update index target (some (incoming ++ [source])))

/-- Notes the edges of a node as they are listed. -/
def linkNode (index : EdgeIndex) (node : Node) : Except ContractError EdgeIndex :=
  node.connections.foldlM (link node.id) index

/-- Notes the edges of all nodes. -/
def ofNodes (nodes : List Node) : Except ContractError EdgeIndex :=
  nodes.foldlM linkNode (start fun id => nodes.any fun node => node.id == id)

/-! ## What is noted -/

/-- The ids of those nodes that have an edge to the given id. -/
def sources (nodes : List Node) (id : String) : List String :=
  (nodes.filter fun node => node.connections.contains id).map Node.id

/-- What is noted after some nodes. -/
def gathered (known : String → Bool) (done : List Node) : EdgeIndex := fun id =>
  if known id then some (sources done id) else none

/-- What is noted after some nodes and the first edges of the next one. -/
def noted (known : String → Bool) (done : List Node) (source : String) (front : List String) : EdgeIndex :=
  fun id =>
    if known id then some (sources done id ++ if id ∈ front then [source] else []) else none

section Noted

variable {known : String → Bool} {nodes done : List Node} {node : Node} {source target : String}
  {front : List String}

theorem mem_sources {id : String} :
    source ∈ sources nodes id ↔ ∃ node ∈ nodes, node.id = source ∧ id ∈ node.connections := by
  simp only [sources, List.mem_map, List.mem_filter, List.contains_iff_mem]
  constructor
  · rintro ⟨node, ⟨hmem, hedge⟩, hid⟩
    exact ⟨node, hmem, hid, hedge⟩
  · rintro ⟨node, hmem, hid, hedge⟩
    exact ⟨node, ⟨hmem, hedge⟩, hid⟩

theorem sources_append_singleton (id : String) : sources (done ++ [node]) id =
    sources done id ++ if id ∈ node.connections then [node.id] else [] := by
  unfold sources
  rw [List.filter_append, List.map_append, List.filter_cons, List.filter_nil]
  by_cases hedge : id ∈ node.connections
  · rw [if_pos hedge, if_pos (List.contains_iff_mem.2 hedge)]
    rfl
  · rw [if_neg hedge, if_neg fun h => hedge (List.contains_iff_mem.1 h)]
    rfl

theorem start_eq : start known = gathered known [] := rfl

theorem noted_nil (source : String) : noted known done source [] = gathered known done := by
  funext id
  unfold noted gathered
  rw [if_neg List.not_mem_nil, List.append_nil]

theorem noted_connections :
    noted known done node.id node.connections = gathered known (done ++ [node]) := by
  funext id
  unfold noted gathered
  rw [sources_append_singleton]

/-- One step: an edge to a known id goes to the first edges, and any other is the error. -/
theorem link_noted (hfresh : ∀ node ∈ done, node.id ≠ source) :
    link source (noted known done source front) target =
      if known target then .ok (noted known done source (front ++ [target]))
      else .error (.danglingConnection source target) := by
  by_cases hknown : known target = true
  · have hentry : noted known done source front target =
        some (sources done target ++ if target ∈ front then [source] else []) := if_pos hknown
    have hbefore : source ∉ sources done target := by
      intro hmem
      obtain ⟨node, hnode, hid, -⟩ := mem_sources.1 hmem
      exact hfresh node hnode hid
    rw [link, hentry, if_pos hknown]
    by_cases hfront : target ∈ front
    · -- the source stands in the entry already, and the target among the edges before
      have hnoted : (sources done target ++ [source]).contains source = true :=
        List.contains_iff_mem.2 (List.mem_append_right _ List.mem_cons_self)
      have hsame : noted known done source (front ++ [target]) = noted known done source front := by
        funext id
        have hiff : id ∈ front ++ [target] ↔ id ∈ front := by
          rw [List.mem_append, List.mem_singleton]
          exact or_iff_left_of_imp fun h => h ▸ hfront
        unfold noted
        simp only [hiff]
      simp only [if_pos hfront, hnoted, if_true, hsame]
    · have hnoted : (sources done target ++ []).contains source = false := by
        rw [List.append_nil, ← Bool.not_eq_true, List.contains_iff_mem]
        exact hbefore
      have hnext : Function.update (noted known done source front) target
          (some (sources done target ++ [] ++ [source])) =
          noted known done source (front ++ [target]) := by
        funext id
        by_cases hid : id = target
        · subst hid
          rw [Function.update_self]
          unfold noted
          rw [if_pos hknown, if_pos (List.mem_append_right _ List.mem_cons_self), List.append_nil]
        · have hiff : id ∈ front ++ [target] ↔ id ∈ front := by
            rw [List.mem_append, List.mem_singleton]
            exact or_iff_left hid
          rw [Function.update_of_ne hid]
          unfold noted
          simp only [hiff]
      simp only [if_neg hfront, hnoted, Bool.false_eq_true, if_false, hnext]
  · have hentry : noted known done source front target = none := if_neg hknown
    rw [link, hentry, if_neg hknown]

/-- The edges of a node are noted up to the first one that dangles. -/
theorem foldlM_link (hfresh : ∀ node ∈ done, node.id ≠ source) (front targets : List String) :
    targets.foldlM (link source) (noted known done source front) =
      match targets.find? fun target => !known target with
      | some target => .error (.danglingConnection source target)
      | none => .ok (noted known done source (front ++ targets)) := by
  induction targets generalizing front with
  | nil =>
    rw [List.append_nil]
    rfl
  | cons target rest ih =>
    rw [List.foldlM_cons, link_noted hfresh, List.find?_cons]
    cases hknown : known target with
    | false => rfl
    | true =>
      have hrest := ih (front ++ [target])
      rw [List.append_assoc] at hrest
      exact hrest

theorem linkNode_gathered (hfresh : ∀ other ∈ done, other.id ≠ node.id) :
    linkNode (gathered known done) node =
      match node.connections.find? fun target => !known target with
      | some target => .error (.danglingConnection node.id target)
      | none => .ok (gathered known (done ++ [node])) := by
  unfold linkNode
  rw [← noted_nil node.id, foldlM_link hfresh, List.nil_append, noted_connections]

/-- All edges are noted up to the first one that dangles, node by node. -/
theorem foldlM_linkNode (done rest : List Node) (hdistinct : ((done ++ rest).map Node.id).Nodup) :
    rest.foldlM linkNode (gathered known done) =
      match rest.findSome? fun node =>
        (node.connections.find? fun target => !known target).map fun target => (node.id, target) with
      | some edge => .error (.danglingConnection edge.1 edge.2)
      | none => .ok (gathered known (done ++ rest)) := by
  induction rest generalizing done with
  | nil =>
    rw [List.append_nil]
    rfl
  | cons node rest ih =>
    have hfresh : ∀ other ∈ done, other.id ≠ node.id := by
      intro other hother
      rw [List.map_append, List.nodup_append] at hdistinct
      exact hdistinct.2.2 other.id (List.mem_map_of_mem hother) node.id List.mem_cons_self
    rw [List.foldlM_cons, linkNode_gathered hfresh, List.findSome?_cons]
    cases node.connections.find? fun target => !known target with
    | some target => rfl
    | none =>
      have hassoc : done ++ [node] ++ rest = done ++ node :: rest := by
        rw [List.append_assoc, List.singleton_append]
      have hrest := ih (done ++ [node]) (hassoc ▸ hdistinct)
      rw [hassoc] at hrest
      exact hrest

end Noted

theorem ofNodes_eq {nodes : List Node} (hasc : IsAscending Node.id nodes) :
    ofNodes nodes =
      match Contract.dangling? nodes with
      | some edge => .error (.danglingConnection edge.1 edge.2)
      | none => .ok (gathered (fun id => nodes.any fun node => node.id == id) nodes) := by
  have hdistinct : (nodes.map Node.id).Nodup := by
    apply List.pairwise_map.2
    apply hasc.imp
    intro node other hlt heq
    rw [heq] at hlt
    exact String.lt_irrefl _ hlt
  rw [ofNodes, start_eq]
  exact foldlM_linkNode [] nodes hdistinct

end EdgeIndex

namespace Contract

/-- The parts of a contract, built in one go: its name, its nodes, and who leads to each of them. -/
def assemble (name : String) (records : List NodeRecord) :
    Except ContractError (String × List Node × EdgeIndex) := do
  let nodes ← collect records []
  let index ← EdgeIndex.ofNodes nodes
  return (name, nodes, index)

/-- The predecessors of every node. -/
def edgeIndex (contract : Contract) : EdgeIndex := fun id =>
  (contract.node? id).map fun _ => contract.predecessors id

theorem gathered_nodes (contract : Contract) :
    EdgeIndex.gathered (fun id => contract.nodes.any fun node => node.id == id) contract.nodes =
      contract.edgeIndex := by
  funext id
  have hknown : (contract.nodes.any fun node => node.id == id) = (contract.node? id).isSome :=
    List.isSome_find?.symm
  unfold EdgeIndex.gathered edgeIndex
  simp only [hknown]
  cases contract.node? id with
  | none => rfl
  | some node => rfl

/-- **Noting edges agrees with searching for them**: it fails with the same error, and otherwise it ends with the
predecessors of every node. -/
theorem assemble_eq (name : String) (records : List NodeRecord) :
    assemble name records =
      (build name records).map fun contract => (contract.name, contract.nodes, contract.edgeIndex) := by
  unfold assemble
  cases hcollect : collect records [] with
  | error error =>
    have hbuild : build name records = .error error := build_eq_error_iff.2 (.inl hcollect)
    rw [hbuild]
    rfl
  | ok nodes =>
    obtain ⟨hasc, -⟩ := collect_invariant hcollect .nil (fun _ h => absurd h List.not_mem_nil)
    change (EdgeIndex.ofNodes nodes >>= fun index => .ok (name, nodes, index)) = _
    rw [EdgeIndex.ofNodes_eq hasc]
    cases hdangling : dangling? nodes with
    | some edge =>
      have hbuild : build name records = .error (.danglingConnection edge.1 edge.2) :=
        build_eq_error_iff.2 (.inr ⟨nodes, edge, hcollect, hdangling, rfl⟩)
      rw [hbuild]
      rfl
    | none =>
      obtain ⟨contract, hbuild, rfl⟩ : ∃ contract, build name records = .ok contract ∧
          contract.nodes = nodes := exists_build hcollect hdangling
      rw [hbuild, gathered_nodes, ← name_of_build hbuild]
      rfl

end Contract

end PerkGraph
