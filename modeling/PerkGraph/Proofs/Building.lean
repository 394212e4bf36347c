import PerkGraph.Proofs.Decoration
import PerkGraph.Proofs.EdgeIndex
import PerkGraph.Proofs.TextGrammar

/-!
# Which records make a contract

Records make a contract if and only if their ids are well-formed and distinct and every edge leads to one of them
(`Contract.AreSound`). Otherwise there is one error to report. Ids come first, record by record as they are listed,
and the form of an id before its repetition (`Contract.BadRecord`). If all ids are in order, it is the first dangling
edge, where first refers to the order of ids and not to that of the records (`Contract.IsFirstDangling`).

A contract has the nodes of its records and nothing else, in an order of its own. So the records may be listed in any
order (`Contract.build_isExact`).
-/

namespace PerkGraph

/-! ## Ids -/

/-- The text matches `[A-Za-z0-9_-]+`. -/
def IsIdText (s : String) : Prop :=
  s ≠ "" ∧ ∀ c ∈ s.toList,
    'A' ≤ c ∧ c ≤ 'Z' ∨ 'a' ≤ c ∧ c ≤ 'z' ∨ '0' ≤ c ∧ c ≤ '9' ∨ c = '_' ∨ c = '-'

theorem isIdChar_iff {c : Char} : isIdChar c = true ↔
    'A' ≤ c ∧ c ≤ 'Z' ∨ 'a' ≤ c ∧ c ≤ 'z' ∨ '0' ≤ c ∧ c ≤ '9' ∨ c = '_' ∨ c = '-' := by
  unfold isIdChar
  delta Char.isAlphanum Char.isAlpha Char.isUpper Char.isLower Char.isDigit
  simp only [Bool.or_eq_true, Bool.and_eq_true, decide_eq_true_eq, beq_iff_eq, ge_iff_le, or_assoc]
  exact Iff.rfl

theorem isNodeId_iff_isIdText {s : String} : isNodeId s = true ↔ IsIdText s := by
  simp only [isNodeId_iff, isIdChar_iff, IsIdText]

/-- An entry whose key is new is added and nothing is lost. -/
theorem mem_insertAscending_iff {α : Type} {key : α → String} {x y : α} {xs : List α}
    (hnew : ∀ z ∈ xs, key z ≠ key x) : y ∈ insertAscending key x xs ↔ y = x ∨ y ∈ xs := by
  constructor
  · exact mem_of_mem_insertAscending
  · rintro (rfl | hmem)
    · exact self_mem_insertAscending y xs
    · exact mem_insertAscending_of_mem hmem (hnew y hmem).symm

namespace Contract

variable {name source target : String} {records front rest others : List NodeRecord}
  {record : NodeRecord} {built nodes : List Node} {contract : Contract} {error : ContractError}

/-! ## Records -/

/-- The text is the id of one of the records. -/
def Names (records : List NodeRecord) (id : String) : Prop :=
  ∃ record ∈ records, record.id = id

/-- The ids of the records are in order: well formed and distinct. -/
structure HaveIds (records : List NodeRecord) : Prop where
  wellFormed : ∀ record ∈ records, IsIdText record.id
  distinct : (records.map NodeRecord.id).Nodup

/-- The records make a contract: their ids are in order, and every edge leads to one of them. -/
structure AreSound (records : List NodeRecord) : Prop extends HaveIds records where
  closed : ∀ record ∈ records, ∀ target ∈ record.connections, Names records target

/-- What can be wrong with a record behind those in front of it, apart from its edges. -/
inductive BadRecord (front : List NodeRecord) (record : NodeRecord) : ContractError → Prop
  | invalidNodeId (h : ¬IsIdText record.id) : BadRecord front record (.invalidNodeId record.id)
  | duplicateNode (hid : IsIdText record.id) (hfront : Names front record.id) :
      BadRecord front record (.duplicateNode record.id)

/-- The edge is the first that leads nowhere, by the id of the node and then as listed. -/
structure IsFirstDangling (records : List NodeRecord) (source target : String) : Prop where
  dangles : ∃ record ∈ records, record.id = source ∧ ∃ before after,
    record.connections = before ++ target :: after ∧ (∀ known ∈ before, Names records known) ∧
      ¬Names records target
  smaller : ∀ record ∈ records, record.id < source → ∀ target ∈ record.connections, Names records target

/-! ## Collecting -/

/-- The nodes are those of the records, whose ids are in order. -/
structure Collected (records : List NodeRecord) (nodes : List Node) : Prop extends HaveIds records where
  ascending : IsAscending Node.id nodes
  mem_iff : ∀ node, node ∈ nodes ↔ ∃ record ∈ records, Node.ofRecord record = node

theorem collected_nil : Collected [] [] where
  wellFormed _ h := absurd h List.not_mem_nil
  distinct := .nil
  ascending := .nil
  mem_iff node := by simp

theorem Collected.unique (h : Collected records built) (h' : Collected records nodes) : built = nodes :=
  h.ascending.ext_mem h'.ascending fun node => (h.mem_iff node).trans (h'.mem_iff node).symm

theorem Collected.exists_iff (h : Collected records nodes) {P : Node → Prop} :
    (∃ node ∈ nodes, P node) ↔ ∃ record ∈ records, P (.ofRecord record) := by
  constructor
  · rintro ⟨node, hmem, hnode⟩
    obtain ⟨record, hrecord, rfl⟩ := (h.mem_iff node).1 hmem
    exact ⟨record, hrecord, hnode⟩
  · rintro ⟨record, hrecord, hnode⟩
    exact ⟨.ofRecord record, (h.mem_iff _).2 ⟨record, hrecord, rfl⟩, hnode⟩

theorem Collected.forall_iff (h : Collected records nodes) {P : Node → Prop} :
    (∀ node ∈ nodes, P node) ↔ ∀ record ∈ records, P (.ofRecord record) := by
  constructor
  · intro hall record hrecord
    exact hall _ ((h.mem_iff _).2 ⟨record, hrecord, rfl⟩)
  · intro hall node hmem
    obtain ⟨record, hrecord, rfl⟩ := (h.mem_iff node).1 hmem
    exact hall record hrecord

theorem Collected.any_id_eq_true_iff (h : Collected records nodes) {id : String} :
    (nodes.any fun node => node.id == id) = true ↔ Names records id := by
  simp only [List.any_eq_true, beq_iff_eq]
  exact h.exists_iff

/-- A record with an id of its own goes to those collected. -/
theorem Collected.append (h : Collected front built) (hid : IsIdText record.id)
    (hfront : ¬Names front record.id) :
    Collected (front ++ [record]) (insertAscending Node.id (.ofRecord record) built) := by
  have hnew : ∀ node ∈ built, node.id ≠ (Node.ofRecord record).id := by
    rw [h.forall_iff]
    intro other hother heq
    exact hfront ⟨other, hother, heq⟩
  refine ⟨⟨fun other hother => ?_, ?_⟩, isAscending_insertAscending _ h.ascending, fun node => ?_⟩
  · rcases List.mem_append.1 hother with hother | hother
    · exact h.wellFormed other hother
    · obtain rfl := List.mem_singleton.1 hother
      exact hid
  · rw [List.map_append, List.nodup_append]
    refine ⟨h.distinct, List.pairwise_singleton _ _, ?_⟩
    intro first hfirst second hsecond heq
    obtain ⟨other, hother, rfl⟩ := List.mem_map.1 hfirst
    obtain rfl := List.mem_singleton.1 hsecond
    exact hfront ⟨other, hother, heq⟩
  · rw [mem_insertAscending_iff hnew, h.mem_iff]
    simp only [List.mem_append, List.mem_singleton, or_and_right, exists_or, exists_eq_left]
    rw [or_comm, eq_comm]

theorem BadRecord.not_haveIds (h : BadRecord front record error) : ¬HaveIds (front ++ record :: rest) := by
  intro hids
  cases h with
  | invalidNodeId hid => exact hid (hids.wellFormed record (by simp))
  | duplicateNode _ hfront =>
    obtain ⟨other, hother, hid⟩ := hfront
    have hdistinct := hids.distinct
    rw [List.map_append, List.nodup_append] at hdistinct
    exact hdistinct.2.2 other.id (List.mem_map_of_mem hother) record.id List.mem_cons_self hid

/-- One step: a bad record is the error, and any other goes to those collected. -/
theorem collect_cons (h : Collected front built) :
    (∃ found, (∀ error, BadRecord front record error ↔ error = found) ∧
      collect (record :: rest) built = .error found) ∨
    (∀ error, ¬BadRecord front record error) ∧ ∃ next, Collected (front ++ [record]) next ∧
      collect (record :: rest) built = collect rest next := by
  rw [collect]
  by_cases hid : IsIdText record.id
  · rw [isNodeId_iff_isIdText.2 hid]
    by_cases hfront : Names front record.id
    · refine .inl ⟨.duplicateNode record.id, fun error => ⟨fun hbad => ?_, ?_⟩, ?_⟩
      · cases hbad with
        | invalidNodeId hid' => exact absurd hid hid'
        | duplicateNode _ _ => rfl
      · rintro rfl
        exact .duplicateNode hid hfront
      · rw [h.any_id_eq_true_iff.2 hfront]
        rfl
    · refine .inr ⟨fun error hbad => ?_, _, h.append hid hfront, ?_⟩
      · cases hbad with
        | invalidNodeId hid' => exact hid' hid
        | duplicateNode _ hfront' => exact hfront hfront'
      · rw [if_neg fun hany => hfront (h.any_id_eq_true_iff.1 hany)]
        rfl
  · refine .inl ⟨.invalidNodeId record.id, fun error => ⟨fun hbad => ?_, ?_⟩, ?_⟩
    · cases hbad with
      | invalidNodeId _ => rfl
      | duplicateNode hid' _ => exact absurd hid' hid
    · rintro rfl
      exact .invalidNodeId hid
    · rw [Bool.eq_false_iff.2 fun hvalid => hid (isNodeId_iff_isIdText.1 hvalid)]
      rfl

theorem collect_eq_ok_iff (h : Collected front built) :
    collect rest built = .ok nodes ↔ Collected (front ++ rest) nodes := by
  induction rest generalizing front built with
  | nil =>
    rw [List.append_nil, collect, Except.ok.injEq]
    constructor
    · rintro rfl
      exact h
    · exact h.unique
  | cons record rest ih =>
    rcases collect_cons h with ⟨found, hbad, herror⟩ | ⟨-, next, hnext, hstep⟩
    · rw [herror]
      refine ⟨nofun, fun hcollected => ?_⟩
      exact absurd hcollected.toHaveIds ((hbad found).2 rfl).not_haveIds
    · rw [hstep, ih hnext, List.append_assoc, List.singleton_append]

theorem collect_eq_error_iff (h : Collected front built) :
    collect rest built = .error error ↔ IsFirstFault (EntryFault BadRecord front rest) error := by
  induction rest generalizing front built with
  | nil => exact ⟨nofun, fun hfault => absurd hfault not_isFirstFault_entryFault_nil⟩
  | cons record rest ih =>
    rcases collect_cons h with ⟨found, hbad, herror⟩ | ⟨hgood, next, hnext, hstep⟩
    · rw [herror, isFirstFault_entryFault_cons_of_bad found hbad, Except.error.injEq, eq_comm]
    · rw [hstep, ih hnext, isFirstFault_entryFault_cons hgood]

/-! ## Dangling edges -/

section Dangling

variable (h : Collected records nodes)
include h

theorem Collected.find?_eq_none_iff {targets : List String} :
    (targets.find? fun target => !nodes.any fun node => node.id == target) = none ↔
      ∀ target ∈ targets, Names records target := by
  simp only [List.find?_eq_none, Bool.not_eq_true', Bool.not_eq_false, h.any_id_eq_true_iff]

theorem Collected.find?_eq_some_iff {targets : List String} :
    (targets.find? fun target => !nodes.any fun node => node.id == target) = some target ↔
      ∃ before after, targets = before ++ target :: after ∧ (∀ known ∈ before, Names records known) ∧
        ¬Names records target := by
  rw [List.find?_eq_some_iff_append]
  simp only [Bool.not_eq_true', Bool.not_not, h.any_id_eq_true_iff, ← Bool.not_eq_true]
  constructor
  · rintro ⟨hbad, before, after, hsplit, hbefore⟩
    exact ⟨before, after, hsplit, hbefore, hbad⟩
  · rintro ⟨before, after, hsplit, hbefore, hbad⟩
    exact ⟨hbad, before, after, hsplit, hbefore⟩

theorem Collected.dangling?_eq_none_iff : dangling? nodes = none ↔
    ∀ record ∈ records, ∀ target ∈ record.connections, Names records target := by
  simp only [dangling?, List.findSome?_eq_none_iff, Option.map_eq_none_iff, h.find?_eq_none_iff]
  exact h.forall_iff

/-- The search goes through the nodes in ascending order, so it finds the smallest id first. -/
theorem Collected.dangling?_eq_some_iff :
    dangling? nodes = some (source, target) ↔ IsFirstDangling records source target := by
  simp only [dangling?, List.findSome?_eq_some_iff, Option.map_eq_none_iff, Option.map_eq_some_iff,
    h.find?_eq_none_iff, h.find?_eq_some_iff]
  constructor
  · rintro ⟨front, node, back, hsplit, ⟨_, hfound, heq⟩, hfront⟩
    cases heq
    have hasc := h.ascending
    rw [hsplit] at hasc
    obtain ⟨record, hrecord, rfl⟩ := (h.mem_iff node).1 (by simp [hsplit])
    refine ⟨⟨record, hrecord, rfl, hfound⟩, fun other hother hlt => ?_⟩
    have hmem : Node.ofRecord other ∈ front ++ .ofRecord record :: back :=
      hsplit ▸ (h.mem_iff _).2 ⟨other, hother, rfl⟩
    obtain ⟨-, hback, -⟩ := List.pairwise_append.1 hasc
    rcases List.mem_append.1 hmem with hmem | hmem
    · exact hfront _ hmem
    · rcases List.mem_cons.1 hmem with heq | hmem
      · have hid : other.id = record.id := congrArg Node.id heq
        exact absurd (hid ▸ hlt) (String.lt_irrefl _)
      · exact absurd hlt (String.lt_asymm ((List.pairwise_cons.1 hback).1 _ hmem))
  · rintro ⟨⟨record, hrecord, rfl, hfound⟩, hsmaller⟩
    obtain ⟨front, back, hsplit⟩ := List.append_of_mem ((h.mem_iff _).2 ⟨record, hrecord, rfl⟩)
    refine ⟨front, .ofRecord record, back, hsplit, ⟨target, hfound, rfl⟩, fun node hmem => ?_⟩
    have hasc := h.ascending
    rw [hsplit] at hasc
    have hlt : node.id < record.id :=
      (List.pairwise_append.1 hasc).2.2 node hmem _ List.mem_cons_self
    obtain ⟨other, hother, rfl⟩ := (h.mem_iff node).1 (by simp [hsplit, hmem])
    exact hsmaller other hother hlt

end Dangling

/-! ## Contracts -/

theorem not_haveIds_of_isFirstFault (h : IsFirstFault (EntryFault BadRecord [] records) error) :
    ¬HaveIds records := by
  obtain ⟨before, record, after, rfl, hbad⟩ := exists_bad_of_isFirstFault h
  exact hbad.not_haveIds

/-- Records with ids in order are collected. -/
theorem exists_collected (h : HaveIds records) : ∃ nodes, Collected records nodes := by
  cases hcollect : collect records [] with
  | error error =>
    have hfault := (collect_eq_error_iff collected_nil).1 hcollect
    exact absurd h (not_haveIds_of_isFirstFault hfault)
  | ok nodes => exact ⟨nodes, (collect_eq_ok_iff collected_nil).1 hcollect⟩

/-- A contract is built from those records whose nodes it has. -/
theorem build_eq_ok_iff :
    build name records = .ok contract ↔ contract.name = name ∧ Collected records contract.nodes := by
  constructor
  · intro h
    exact ⟨name_of_build h, (collect_eq_ok_iff collected_nil).1 (collect_of_build h)⟩
  · rintro ⟨rfl, hcollected⟩
    exact build_of_collect ((collect_eq_ok_iff collected_nil).2 hcollected)

theorem exists_build_iff : (∃ contract, build name records = .ok contract) ↔ AreSound records := by
  constructor
  · rintro ⟨contract, hbuild⟩
    obtain ⟨-, hcollected⟩ := build_eq_ok_iff.1 hbuild
    exact ⟨hcollected.toHaveIds,
      hcollected.dangling?_eq_none_iff.1 (Contract.dangling?_eq_none_iff.2 contract.closed)⟩
  · intro h
    obtain ⟨nodes, hcollected⟩ := exists_collected h.toHaveIds
    obtain ⟨contract, hbuild, -⟩ : ∃ contract, build name records = .ok contract ∧
        contract.nodes = nodes :=
      exists_build ((collect_eq_ok_iff collected_nil).2 hcollected)
        (hcollected.dangling?_eq_none_iff.2 h.closed)
    exact ⟨contract, hbuild⟩

/-- Dangling edges are looked for only if the ids are in order. -/
theorem build_eq_error_iff_first : build name records = .error error ↔
    IsFirstFault (EntryFault BadRecord [] records) error ∨
      HaveIds records ∧ ∃ source target, IsFirstDangling records source target ∧
        error = .danglingConnection source target := by
  rw [build_eq_error_iff, collect_eq_error_iff collected_nil]
  apply or_congr_right
  constructor
  · rintro ⟨nodes, ⟨source, target⟩, hcollect, hdangling, rfl⟩
    have hcollected : Collected records nodes := (collect_eq_ok_iff collected_nil).1 hcollect
    exact ⟨hcollected.toHaveIds, source, target, hcollected.dangling?_eq_some_iff.1 hdangling, rfl⟩
  · rintro ⟨hids, source, target, hfirst, rfl⟩
    obtain ⟨nodes, hcollected⟩ := exists_collected hids
    exact ⟨nodes, (source, target), (collect_eq_ok_iff collected_nil).2 hcollected,
      hcollected.dangling?_eq_some_iff.2 hfirst, rfl⟩

theorem Collected.perm (h : Collected records nodes) (hperm : records.Perm others) :
    Collected others nodes where
  wellFormed record hrecord := h.wellFormed record (hperm.mem_iff.2 hrecord)
  distinct := (hperm.map NodeRecord.id).nodup_iff.1 h.distinct
  ascending := h.ascending
  mem_iff node := by simp only [h.mem_iff, hperm.mem_iff]

theorem mem_predecessors_iff (h : Collected records contract.nodes) :
    source ∈ contract.predecessors target ↔
      ∃ record ∈ records, record.id = source ∧ target ∈ record.connections :=
  EdgeIndex.mem_sources.trans h.exists_iff

theorem predecessors_eq_nil (h : contract.node? target = none) : contract.predecessors target = [] := by
  apply List.eq_nil_iff_forall_not_mem.2
  intro source hmem
  obtain ⟨node, hnode, hedge⟩ := mem_predecessors.1 hmem
  obtain ⟨other, hother, hid⟩ := contract.closed node (mem_of_node? hnode) target hedge
  cases h.symm.trans (node?_eq_some_iff.2 ⟨hother, hid⟩)

/-! ## The main statement -/

/-- **Building is exact and the order of the records does not matter.** Records make a contract if and only if they
are sound, and the error is that of the first record whose id is not in order or else the first dangling edge. The
contract has the nodes of the records; the predecessors of an id are the nodes with an edge to it, once each and in
ascending order, and an id that names no node has none. Records listed in another order build the same contract. An
index of the predecessors that is noted edge by edge fails with the same error or ends in the same lists. -/
theorem build_isExact (name : String) (records : List NodeRecord) :
    ((∃ contract, build name records = .ok contract) ↔ AreSound records) ∧
    (∀ error, build name records = .error error ↔
      IsFirstFault (EntryFault BadRecord [] records) error ∨
        HaveIds records ∧ ∃ source target, IsFirstDangling records source target ∧
          error = .danglingConnection source target) ∧
    (∀ contract, build name records = .ok contract →
      contract.name = name ∧
      (∀ node, node ∈ contract.nodes ↔ ∃ record ∈ records, Node.ofRecord record = node) ∧
      (∀ target, IsAscending id (contract.predecessors target) ∧
        (∀ source, source ∈ contract.predecessors target ↔
          ∃ record ∈ records, record.id = source ∧ target ∈ record.connections) ∧
        (¬Names records target → contract.predecessors target = [])) ∧
      ∀ others, records.Perm others → build name others = .ok contract) ∧
    assemble name records =
      (build name records).map fun contract => (contract.name, contract.nodes, contract.edgeIndex) := by
  refine ⟨exists_build_iff, fun error => build_eq_error_iff_first, fun contract hbuild => ?_,
    assemble_eq name records⟩
  obtain ⟨hname, hcollected⟩ := build_eq_ok_iff.1 hbuild
  refine ⟨hname, hcollected.mem_iff, fun target => ⟨isAscending_predecessors contract target,
    fun source => mem_predecessors_iff hcollected, fun hunknown => ?_⟩, fun others hperm => ?_⟩
  · apply predecessors_eq_nil
    cases hnode : contract.node? target with
    | none => rfl
    | some node =>
      have hnamed : ∃ node ∈ contract.nodes, node.id = target :=
        ⟨node, node?_eq_some_iff.1 hnode⟩
      exact absurd (hcollected.exists_iff.1 hnamed) hunknown
  · exact build_eq_ok_iff.2 ⟨hname, hcollected.perm hperm⟩

/-- A self-loop and a repeated edge each count once; the dangling edge of the smaller id is to blame. -/
example :
    (build "" [{ id := "b", connections := ["b", "a", "a"] }, { id := "a", connections := ["b"] }]).map
      (fun contract => (contract.predecessors "a", contract.predecessors "b")) =
        .ok (["b"], ["a", "b"]) ∧
    (build "" [{ id := "b", connections := ["c"] }, { id := "a", connections := ["b", "d", "c"] }]).map
      Contract.records = .error (.danglingConnection "a" "d") := by
  decide +kernel

end Contract

end PerkGraph
