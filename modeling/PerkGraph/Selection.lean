import PerkGraph.Ascending

/-! # Selections

The ids that a player has chosen, once each and in the order of choosing. The order is for display;
`Selection.toIdSet` is what everything else works on.
-/

namespace PerkGraph

/-- Distinct ids in the order in which they were chosen. -/
structure Selection where
  ids : List String
  nodup : ids.Nodup := by exact List.nodup_nil

namespace Selection

instance : DecidableEq Selection := fun s t =>
  if h : s.ids = t.ids then
    .isTrue (by cases s; cases t; cases h; rfl)
  else .isFalse fun he => h (congrArg ids he)

@[ext] theorem ext {s t : Selection} (h : s.ids = t.ids) : s = t := by
  cases s; cases t; cases h; rfl

def empty : Selection := { ids := [] }

instance : Inhabited Selection := ⟨empty⟩

instance : Membership String Selection where
  mem s x := x ∈ s.ids

instance (x : String) (s : Selection) : Decidable (x ∈ s) :=
  inferInstanceAs (Decidable (x ∈ s.ids))

theorem mem_def {x : String} {s : Selection} : x ∈ s ↔ x ∈ s.ids := Iff.rfl

def size (s : Selection) : Nat :=
  s.ids.length

/-- The selection with one more id at the end, unless it is there already. -/
def insert (s : Selection) (x : String) : Selection :=
  if h : x ∈ s then s
  else
    { ids := s.ids ++ [x]
      nodup := by
        rw [List.nodup_append]
        refine ⟨s.nodup, by simp, fun a ha b hb => ?_⟩
        rw [List.mem_singleton] at hb
        rintro rfl
        exact h (hb ▸ ha) }

/-- The selected ids that pass a test, in their order. -/
def filter (p : String → Bool) (s : Selection) : Selection where
  ids := s.ids.filter p
  nodup := s.nodup.filter p

/-- The selection without one id. -/
def erase (s : Selection) (x : String) : Selection :=
  s.filter fun y => y != x

/-- Inserts an id and tells whether it was new. -/
def insertNew (s : Selection) (x : String) : Bool × Selection :=
  (x ∉ s, s.insert x)

/-- Erases an id and tells whether it was there. -/
def eraseOld (s : Selection) (x : String) : Bool × Selection :=
  (x ∈ s, s.erase x)

/-- The ids of a list, each where it stands first. -/
def ofList (xs : List String) : Selection :=
  xs.foldl insert empty

def toIdSet (s : Selection) : IdSet :=
  .ofList s.ids

theorem ids_insert_of_not_mem {x : String} {s : Selection} (h : x ∉ s) :
    (s.insert x).ids = s.ids ++ [x] := by
  rw [insert, dif_neg h]

@[simp] theorem mem_toIdSet {x : String} {s : Selection} : x ∈ s.toIdSet ↔ x ∈ s := by
  simp [toIdSet, mem_def]

@[simp] theorem mem_filter {x : String} {p : String → Bool} {s : Selection} :
    x ∈ s.filter p ↔ x ∈ s ∧ p x = true := by
  simp [filter, mem_def]

@[simp] theorem mem_insert {x y : String} {s : Selection} : y ∈ s.insert x ↔ y ∈ s ∨ y = x := by
  unfold insert
  split
  · rename_i h
    exact ⟨.inl, fun hy => hy.elim id fun he => he ▸ h⟩
  · simp [mem_def]

theorem mem_erase {x y : String} {s : Selection} : x ∈ s.erase y ↔ x ∈ s ∧ x ≠ y := by
  simp [erase]

theorem ids_erase (x : String) (s : Selection) : (s.erase x).ids = s.ids.erase x :=
  (s.nodup.erase_eq_filter x).symm

end Selection

end PerkGraph
