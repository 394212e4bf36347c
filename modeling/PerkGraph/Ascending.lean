/-! # Ascending lists

Lists in strictly ascending order of a text key, and the sets of ids made of them. The order is that
of code points. The order is the whole invariant: it rules out repeated keys, and two ascending lists
with the same members are equal (`IsAscending.ext_mem`), so a set of ids has one representation.
-/

namespace PerkGraph

/-- Strictly ascending by key. -/
def IsAscending {α : Type} (key : α → String) (xs : List α) : Prop :=
  xs.Pairwise fun a b => key a < key b

instance {α : Type} (key : α → String) (xs : List α) : Decidable (IsAscending key xs) :=
  inferInstanceAs (Decidable (xs.Pairwise fun a b => key a < key b))

/-- Puts an entry where its key belongs, in place of an entry with the same key. -/
def insertAscending {α : Type} (key : α → String) (x : α) : List α → List α
  | [] => [x]
  | y :: rest =>
    if key x < key y then x :: y :: rest
    else if key x = key y then x :: rest
    else y :: insertAscending key x rest

section Insertion

variable {α : Type} {key : α → String}

theorem mem_of_mem_insertAscending {x y : α} {xs : List α}
    (h : y ∈ insertAscending key x xs) : y = x ∨ y ∈ xs := by
  induction xs with
  | nil => simpa [insertAscending] using h
  | cons z rest ih =>
    unfold insertAscending at h
    split at h
    · simpa using h
    · split at h
      · rcases List.mem_cons.1 h with h | h
        · exact .inl h
        · exact .inr (List.mem_cons_of_mem _ h)
      · rcases List.mem_cons.1 h with h | h
        · exact .inr (h ▸ List.mem_cons_self)
        · exact (ih h).imp_right (List.mem_cons_of_mem _)

theorem self_mem_insertAscending (x : α) (xs : List α) : x ∈ insertAscending key x xs := by
  induction xs with
  | nil => simp [insertAscending]
  | cons z rest ih =>
    unfold insertAscending
    split
    · simp
    · split
      · simp
      · exact List.mem_cons_of_mem _ ih

/-- An insertion loses at most the entry with the same key. -/
theorem mem_insertAscending_of_mem {x y : α} {xs : List α} (h : y ∈ xs) (hk : key x ≠ key y) :
    y ∈ insertAscending key x xs := by
  induction xs with
  | nil => simp at h
  | cons z rest ih =>
    unfold insertAscending
    split
    · exact List.mem_cons_of_mem _ h
    · split
      · rename_i hz
        rcases List.mem_cons.1 h with rfl | h
        · exact absurd hz hk
        · exact List.mem_cons_of_mem _ h
      · rcases List.mem_cons.1 h with rfl | h
        · exact List.mem_cons_self
        · exact List.mem_cons_of_mem _ (ih h)

theorem insertAscending_of_forall_lt {x : α} {xs : List α} (h : ∀ y ∈ xs, key y < key x) :
    insertAscending key x xs = xs ++ [x] := by
  induction xs with
  | nil => rfl
  | cons y rest ih =>
    have hy : key y < key x := h y List.mem_cons_self
    have hne : key x ≠ key y := fun heq => String.lt_irrefl _ (heq ▸ hy)
    rw [insertAscending, if_neg (String.lt_asymm hy), if_neg hne,
      ih fun z hz => h z (List.mem_cons_of_mem _ hz)]
    rfl

theorem isAscending_insertAscending (x : α) {xs : List α} (h : IsAscending key xs) :
    IsAscending key (insertAscending key x xs) := by
  induction xs with
  | nil => simp [insertAscending, IsAscending]
  | cons y rest ih =>
    obtain ⟨hy, hrest⟩ := List.pairwise_cons.1 h
    unfold insertAscending
    split
    · rename_i hlt
      refine List.pairwise_cons.2 ⟨fun z hz => ?_, h⟩
      rcases List.mem_cons.1 hz with rfl | hz
      · exact hlt
      · exact String.lt_trans hlt (hy z hz)
    · split
      · rename_i _ heq
        exact List.pairwise_cons.2 ⟨fun z hz => heq ▸ hy z hz, hrest⟩
      · rename_i hlt hne
        refine List.pairwise_cons.2 ⟨fun z hz => ?_, ih hrest⟩
        rcases mem_of_mem_insertAscending hz with rfl | hz
        · exact String.not_le.1 fun hle => hne (String.le_antisymm hle (String.not_lt.1 hlt))
        · exact hy z hz

end Insertion

/-! ## Sets of ids -/

/-- A finite set of ids, as its members in ascending order. -/
structure IdSet where
  toList : List String
  ascending : IsAscending id toList := by exact List.Pairwise.nil

namespace IdSet

instance : Membership String IdSet where
  mem s x := x ∈ s.toList

instance (x : String) (s : IdSet) : Decidable (x ∈ s) :=
  inferInstanceAs (Decidable (x ∈ s.toList))

theorem mem_def {x : String} {s : IdSet} : x ∈ s ↔ x ∈ s.toList := Iff.rfl

@[simp] theorem mem_mk {x : String} {xs : List String} (h : IsAscending id xs) :
    x ∈ IdSet.mk xs h ↔ x ∈ xs := Iff.rfl

instance : DecidableEq IdSet := fun s t =>
  if h : s.toList = t.toList then
    .isTrue (by cases s; cases t; cases h; rfl)
  else .isFalse fun he => h (congrArg toList he)

def empty : IdSet := { toList := [] }

instance : Inhabited IdSet := ⟨empty⟩

@[simp] theorem not_mem_empty (x : String) : x ∉ empty := by
  simp [empty, mem_def]

instance : HasSubset IdSet where
  Subset s t := ∀ x, x ∈ s → x ∈ t

@[simp] theorem empty_subset (s : IdSet) : empty ⊆ s :=
  fun x h => absurd h (not_mem_empty x)

/-- Every member is listed once. -/
theorem nodup_toList (s : IdSet) : s.toList.Nodup :=
  s.ascending.imp fun hlt => String.ne_of_lt hlt

def size (s : IdSet) : Nat :=
  s.toList.length

/-- The set with one more member, unless it is one already. -/
def insert (s : IdSet) (x : String) : IdSet where
  toList := insertAscending id x s.toList
  ascending := isAscending_insertAscending x s.ascending

@[simp] theorem mem_insert {x y : String} {s : IdSet} : y ∈ s.insert x ↔ y = x ∨ y ∈ s := by
  constructor
  · exact mem_of_mem_insertAscending
  · rintro (rfl | h)
    · exact self_mem_insertAscending _ _
    · by_cases hxy : x = y
      · exact hxy ▸ self_mem_insertAscending _ _
      · exact mem_insertAscending_of_mem h hxy

def ofList (xs : List String) : IdSet :=
  xs.foldl insert empty

private theorem mem_foldl_insert {x : String} {xs : List String} {s : IdSet} :
    x ∈ xs.foldl insert s ↔ x ∈ s ∨ x ∈ xs := by
  induction xs generalizing s with
  | nil => simp
  | cons y rest ih => simp [ih, or_assoc, or_left_comm]

@[simp] theorem mem_ofList {x : String} {xs : List String} : x ∈ ofList xs ↔ x ∈ xs := by
  simp [ofList, mem_foldl_insert]

def filter (p : String → Bool) (s : IdSet) : IdSet where
  toList := s.toList.filter p
  ascending := s.ascending.filter p

@[simp] theorem mem_filter {p : String → Bool} {x : String} {s : IdSet} :
    x ∈ s.filter p ↔ x ∈ s ∧ p x = true := by
  simp [filter, mem_def]

theorem size_filter_le (p : String → Bool) (s : IdSet) : (s.filter p).size ≤ s.size :=
  List.length_filter_le p s.toList

theorem size_filter_lt {p : String → Bool} {x : String} {s : IdSet} (hx : x ∈ s) (hp : p x = false) :
    (s.filter p).size < s.size :=
  List.length_filter_lt_length_iff_exists.2 ⟨x, hx, by simp [hp]⟩

theorem size_filter_mono {p q : String → Bool} (h : ∀ x, p x = true → q x = true) (s : IdSet) :
    (s.filter p).size ≤ (s.filter q).size := by
  simp only [size, filter, ← List.countP_eq_length_filter]
  exact List.countP_mono_left fun x _ => h x

end IdSet

/-! ## One representation -/

private theorem eq_of_mem_iff {α : Type} {key : α → String} {xs ys : List α}
    (hx : IsAscending key xs) (hy : IsAscending key ys) (h : ∀ a, a ∈ xs ↔ a ∈ ys) : xs = ys := by
  induction xs generalizing ys with
  | nil =>
    cases ys with
    | nil => rfl
    | cons y rest => exact absurd ((h y).2 List.mem_cons_self) (by simp)
  | cons x xs ih =>
    cases ys with
    | nil => exact absurd ((h x).1 List.mem_cons_self) (by simp)
    | cons y ys =>
      obtain ⟨hx1, hx2⟩ := List.pairwise_cons.1 hx
      obtain ⟨hy1, hy2⟩ := List.pairwise_cons.1 hy
      have hxy : x = y := by
        rcases List.mem_cons.1 ((h x).1 List.mem_cons_self) with he | hmem
        · exact he
        · rcases List.mem_cons.1 ((h y).2 List.mem_cons_self) with he | hmem'
          · exact he.symm
          · exact absurd (hx1 y hmem') (String.lt_asymm (hy1 x hmem))
      subst hxy
      congr 1
      refine ih hx2 hy2 fun a => ?_
      constructor
      · intro ha
        rcases List.mem_cons.1 ((h a).1 (List.mem_cons_of_mem _ ha)) with rfl | h'
        · exact absurd (hx1 a ha) (String.lt_irrefl _)
        · exact h'
      · intro ha
        rcases List.mem_cons.1 ((h a).2 (List.mem_cons_of_mem _ ha)) with rfl | h'
        · exact absurd (hy1 a ha) (String.lt_irrefl _)
        · exact h'

/-- Two ascending lists with the same members are equal. -/
theorem IsAscending.ext_mem {α : Type} {key : α → String} {xs ys : List α}
    (hx : IsAscending key xs) (hy : IsAscending key ys) (h : ∀ a, a ∈ xs ↔ a ∈ ys) : xs = ys :=
  eq_of_mem_iff hx hy h

/-- Two sets with the same members are equal. -/
@[ext] theorem IdSet.ext {s t : IdSet} (h : ∀ x, x ∈ s ↔ x ∈ t) : s = t := by
  have := s.ascending.ext_mem t.ascending h
  cases s; cases t; cases this; rfl

theorem IdSet.subset_antisymm {s t : IdSet} (hst : s ⊆ t) (hts : t ⊆ s) : s = t :=
  IdSet.ext fun x => ⟨hst x, hts x⟩

/-- In an ascending list the key tells the entry. -/
theorem IsAscending.eq_of_key_eq {α : Type} {key : α → String} {xs : List α}
    (h : IsAscending key xs) {a b : α} (ha : a ∈ xs) (hb : b ∈ xs) (hk : key a = key b) : a = b := by
  induction xs with
  | nil => simp at ha
  | cons x rest ih =>
    obtain ⟨hx, hrest⟩ := List.pairwise_cons.1 h
    rcases List.mem_cons.1 ha with rfl | hra <;> rcases List.mem_cons.1 hb with rfl | hrb
    · rfl
    · exact absurd (hk ▸ hx b hrb) (String.lt_irrefl _)
    · exact absurd (hk ▸ hx a hra) (String.lt_irrefl _)
    · exact ih hrest hra hrb

end PerkGraph
