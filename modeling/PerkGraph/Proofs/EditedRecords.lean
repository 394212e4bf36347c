import Mathlib.Data.List.Forall2
import PerkGraph.Contract

/-!
# Editing records

Building a contract looks at the ids and the edges of the records and at nothing else. An edit that keeps both,
whatever it does to the other fields (`NodeRecord.IsEdit`), goes the same way through the building: the edited
records build a contract whose nodes pair up with those of the original (`exists_build_map`), or they fail for the
same reason (`build_map_eq_error`).
-/

namespace PerkGraph

/-- The edit of records keeps ids and edges, and what it makes of a node is related to the node. -/
structure NodeRecord.IsEdit (edit : NodeRecord → NodeRecord) (R : Node → Node → Prop) : Prop where
  id_eq : ∀ node twin, R node twin → node.id = twin.id
  connections_eq : ∀ node twin, R node twin → node.connections = twin.connections
  related : ∀ record, R (.ofRecord record) (.ofRecord (edit record))

theorem forall₂_insertAscending {α : Type} {key : α → String} {R : α → α → Prop}
    (hkey : ∀ a b, R a b → key a = key b) {x y : α} {xs ys : List α} (hxy : R x y)
    (h : List.Forall₂ R xs ys) :
    List.Forall₂ R (insertAscending key x xs) (insertAscending key y ys) := by
  induction h with
  | nil => exact .cons hxy .nil
  | @cons a b _ _ hab hrest ih =>
    unfold insertAscending
    rw [hkey x y hxy, hkey a b hab]
    split
    · exact .cons hxy (.cons hab hrest)
    · split
      · exact .cons hxy hrest
      · exact .cons hab ih

namespace Contract

variable {edit : NodeRecord → NodeRecord} {R : Node → Node → Prop} {nodes twins : List Node}

theorem any_id_eq (hid : ∀ node twin, R node twin → node.id = twin.id)
    (h : List.Forall₂ R nodes twins) (id : String) :
    (nodes.any fun node => node.id == id) = twins.any fun twin => twin.id == id := by
  induction h with
  | nil => rfl
  | cons hnode _ ih => rw [List.any_cons, List.any_cons, hid _ _ hnode, ih]

section IsEdit

variable (hedit : NodeRecord.IsEdit edit R)
include hedit

theorem collect_map (records : List NodeRecord) (h : List.Forall₂ R nodes twins) :
    (∃ error, collect records nodes = .error error ∧
      collect (records.map edit) twins = .error error) ∨
    ∃ built others, collect records nodes = .ok built ∧
      collect (records.map edit) twins = .ok others ∧ List.Forall₂ R built others := by
  induction records generalizing nodes twins with
  | nil => exact .inr ⟨nodes, twins, rfl, rfl, h⟩
  | cons record rest ih =>
    have hid : record.id = (edit record).id := hedit.id_eq _ _ (hedit.related record)
    rw [List.map_cons, collect, collect, ← hid, any_id_eq hedit.id_eq h]
    split
    · exact .inl ⟨_, rfl, rfl⟩
    · split
      · exact .inl ⟨_, rfl, rfl⟩
      · exact ih (forall₂_insertAscending hedit.id_eq (hedit.related record) h)

theorem dangling?_eq (h : List.Forall₂ R nodes twins) : dangling? nodes = dangling? twins := by
  unfold dangling?
  simp only [any_id_eq hedit.id_eq h]
  -- the ids that edges may lead to are the same; now node by node
  generalize (fun target => !twins.any fun other => other.id == target) = missing
  induction h with
  | nil => rfl
  | cons hnode _ ih =>
    rw [List.findSome?_cons, List.findSome?_cons, hedit.connections_eq _ _ hnode,
      hedit.id_eq _ _ hnode, ih]

variable {name : String} {records : List NodeRecord}

/-- Edited records build a contract with related nodes. -/
theorem exists_build_map {contract : Contract} (h : build name records = .ok contract) :
    ∃ other, build name (records.map edit) = .ok other ∧
      List.Forall₂ R contract.nodes other.nodes := by
  have hbuilt := collect_of_build h
  rcases collect_map hedit records .nil with ⟨error, herror, -⟩ | ⟨built, others, hnodes, hothers, hlike⟩
  · cases hbuilt.symm.trans herror
  · cases hbuilt.symm.trans hnodes
    have hclosed : dangling? others = none := by
      rw [← dangling?_eq hedit hlike]
      exact dangling?_eq_none_iff.2 contract.closed
    obtain ⟨other, hother, rfl⟩ : ∃ other, build name (records.map edit) = .ok other ∧
        other.nodes = others := exists_build hothers hclosed
    exact ⟨other, hother, hlike⟩

theorem build_map_eq_error {error : ContractError} (h : build name records = .error error) :
    build name (records.map edit) = .error error := by
  rw [build_eq_error_iff] at h ⊢
  rcases collect_map hedit records .nil with ⟨first, hfirst, hedited⟩ |
    ⟨built, others, hnodes, hothers, hlike⟩
  · rcases h with h | ⟨_, _, h, -⟩
    · cases hfirst.symm.trans h
      exact .inl hedited
    · cases hfirst.symm.trans h
  · rcases h with h | ⟨_, edge, h, hedge, rfl⟩
    · cases hnodes.symm.trans h
    · cases hnodes.symm.trans h
      exact .inr ⟨others, edge, hothers, dangling?_eq hedit hlike ▸ hedge, rfl⟩

end IsEdit

end Contract

end PerkGraph
