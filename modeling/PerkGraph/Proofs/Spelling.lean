import PerkGraph.Rule.Effect
import PerkGraph.Rule.Gate

/-!
# How rule texts are spelled

Rule texts consist of words, ids, numerals and signs with separators between them. Words, ids and numerals
are all made of the characters of ids, so one fact keeps them clear of blanks and separators
(`isSolid_of_isNodeId`, `not_mem_of_isNodeId`). A legible vocabulary is one whose words are read back from
their names (`Vocabulary.IsLegible`), alone and in lists (`mapM_read?_map_name`).
-/

namespace PerkGraph

/-! ## Characters of ids -/

theorem isIdChar_cases {c : Char} (h : isIdChar c = true) :
    65 ≤ c.toNat ∧ c.toNat ≤ 90 ∨ 97 ≤ c.toNat ∧ c.toNat ≤ 122 ∨ 48 ≤ c.toNat ∧ c.toNat ≤ 57 ∨
      c = '_' ∨ c = '-' := by
  simp only [isIdChar, Bool.or_eq_true, beq_iff_eq] at h
  delta Char.isAlphanum Char.isAlpha Char.isUpper Char.isLower Char.isDigit at h
  simp only [Bool.or_eq_true, Bool.and_eq_true, decide_eq_true_eq, ge_iff_le,
    UInt32.le_iff_toNat_le] at h
  change ((((65 ≤ c.toNat ∧ c.toNat ≤ 90) ∨ (97 ≤ c.toNat ∧ c.toNat ≤ 122)) ∨
    (48 ≤ c.toNat ∧ c.toNat ≤ 57)) ∨ c = '_') ∨ c = '-' at h
  simpa only [or_assoc] using h

theorem isBlank_of_isIdChar {c : Char} (h : isIdChar c = true) : Text.isBlank c = false := by
  have hranges : Text.isBlank c = true → 9 ≤ c.toNat ∧ c.toNat ≤ 13 ∨ c.toNat = 32 ∨
      133 ≤ c.toNat := by
    intro hblank
    simp only [Text.isBlank, Text.blankRanges, List.any_cons, List.any_nil, Bool.or_false,
      Bool.or_eq_true, Bool.and_eq_true, decide_eq_true_eq] at hblank
    omega
  rw [← Bool.not_eq_true]
  intro hblank
  rcases isIdChar_cases h with h | h | h | rfl | rfl
  · have := hranges hblank
    omega
  · have := hranges hblank
    omega
  · have := hranges hblank
    omega
  · exact absurd hblank (by decide)
  · exact absurd hblank (by decide)

theorem isSignChar_of_isIdChar {c : Char} (h : isIdChar c = true) :
    Comparison.isSignChar c = false := by
  rw [← Bool.not_eq_true]
  intro hsign
  simp only [Comparison.isSignChar, Bool.or_eq_true, beq_iff_eq] at hsign
  rcases hsign with (rfl | rfl) | rfl <;> exact absurd h (by decide)

section NodeId

variable {s : String}

theorem isNodeId_iff : isNodeId s = true ↔ s ≠ "" ∧ ∀ c ∈ s.toList, isIdChar c = true := by
  simp only [isNodeId, Bool.and_eq_true, Bool.not_eq_true', List.isEmpty_eq_false_iff, ne_eq,
    String.toList_eq_nil_iff, List.all_eq_true]

theorem isSolid_of_isNodeId (h : isNodeId s = true) : Text.IsSolid s := by
  obtain ⟨hne, hall⟩ := isNodeId_iff.1 h
  exact Text.isSolid_of_forall hne fun c hc => isBlank_of_isIdChar (hall c hc)

theorem not_mem_of_isNodeId {sep : Char} (h : isNodeId s = true) (hsep : isIdChar sep = false) :
    sep ∉ s.toList := by
  intro hmem
  have hid := (isNodeId_iff.1 h).2 sep hmem
  rw [hsep] at hid
  cases hid

end NodeId

/-! ## Numerals -/

theorem isIdChar_of_mem_digits {n : Nat} {c : Char} (h : c ∈ Text.digits n) :
    isIdChar c = true := by
  have hdigit := Text.isDigit_of_mem_digits n c h
  simp [isIdChar, Char.isAlphanum, hdigit]

theorem isNodeId_showNat (n : Nat) : isNodeId (Text.showNat n) = true := by
  rw [isNodeId_iff, Text.showNat, String.toList_ofList]
  refine ⟨fun h => Text.digits_ne_nil n ?_, fun c hc => isIdChar_of_mem_digits hc⟩
  rw [← String.toList_eq_nil_iff, String.toList_ofList] at h
  exact h

theorem isNodeId_numeral (p : Points) : isNodeId p.numeral = true := by
  unfold Points.numeral Text.showInt
  split
  · rw [isNodeId_iff, String.toList_ofList]
    refine ⟨fun h => ?_, fun c hc => ?_⟩
    · rw [← String.toList_eq_nil_iff, String.toList_ofList] at h
      cases h
    · rcases List.mem_cons.1 hc with rfl | hc
      · decide
      · exact isIdChar_of_mem_digits hc
  · exact isNodeId_showNat _

/-! ## Legible vocabularies -/

/-- A vocabulary of plain words, each read back from its name. -/
class Vocabulary.IsLegible (α : Type) [Vocabulary α] : Prop where
  mem_all (a : α) : a ∈ (Vocabulary.all : List α)
  isNodeId_name (a : α) : isNodeId (Vocabulary.name a) = true
  read?_name (a : α) : Vocabulary.read? (Vocabulary.name a) = some a

theorem Vocabulary.isLegible_of_all {α : Type} [Vocabulary α] (hall : ∀ a : α, a ∈ (all : List α))
    (h : ∀ a ∈ (all : List α), PerkGraph.isNodeId (name a) = true ∧ read? (name a) = some a) :
    IsLegible α :=
  ⟨hall, fun a => (h a (hall a)).1, fun a => (h a (hall a)).2⟩

instance : Vocabulary.IsLegible Stat :=
  Vocabulary.isLegible_of_all (fun a => by cases a <;> decide) (by decide)

instance : Vocabulary.IsLegible RunnerType :=
  Vocabulary.isLegible_of_all (fun a => by cases a <;> decide) (by decide)

instance : Vocabulary.IsLegible RunnerStat :=
  Vocabulary.isLegible_of_all (fun a => by cases a <;> decide) (by decide)

instance : Vocabulary.IsLegible NodeColor :=
  Vocabulary.isLegible_of_all (fun a => by cases a <;> decide) (by decide)

instance : Vocabulary.IsLegible ConditionKind :=
  Vocabulary.isLegible_of_all
    (fun a => by
      cases a with
      | extension kind => cases kind <;> decide
      | _ => decide)
    (by decide)

instance : Vocabulary.IsLegible GateKind :=
  Vocabulary.isLegible_of_all (fun a => by cases a <;> decide) (by decide)

namespace Vocabulary

variable {α : Type} [Vocabulary α]

theorem read?_congr {s t : String} (h : Text.sameLetters (Text.trim s) (Text.trim t) = true) :
    (read? s : Option α) = read? t := by
  unfold read?
  simp only [Text.sameLetters_congr h]

theorem name_ne_empty [IsLegible α] (a : α) : name a ≠ "" :=
  (isNodeId_iff.1 (IsLegible.isNodeId_name a)).1

/-- Without aliases a word is read from the spellings of its name. -/
theorem read?_eq_some_iff [IsLegible α] (hone : ∀ a : α, aliases a = []) {s : String} {a : α} :
    read? s = some a ↔ Text.sameLetters (name a) (Text.trim s) = true := by
  constructor
  · intro h
    have hany := List.find?_some h
    simpa only [spellings, hone, List.any_cons, List.any_nil, Bool.or_false] using hany
  · intro h
    have hname : Text.trim (name a) = name a := (isSolid_of_isNodeId (IsLegible.isNodeId_name a)).trimmed
    rw [← read?_congr (s := name a) (by rwa [hname]), IsLegible.read?_name]

/-- Two texts read as words name one word if and only if they are two spellings of one text. -/
theorem eq_iff_sameLetters [IsLegible α] (hone : ∀ a : α, aliases a = []) {s t : String} {a b : α}
    (hs : read? s = some a) (ht : read? t = some b) :
    a = b ↔ Text.sameLetters (Text.trim s) (Text.trim t) = true := by
  constructor
  · rintro rfl
    rw [read?_eq_some_iff hone] at hs ht
    rw [Text.sameLetters_comm] at hs
    exact Text.sameLetters_trans hs ht
  · intro h
    exact Option.some.inj (hs.symm.trans ((read?_congr h).trans ht))

variable [DecidableEq α]

theorem mem_inOrder [IsLegible α] {a : α} {words : List α} : a ∈ inOrder words ↔ a ∈ words := by
  simp [inOrder, IsLegible.mem_all]

theorem inOrder_ne_nil [IsLegible α] {words : List α} (h : words ≠ []) : inOrder words ≠ [] := by
  obtain ⟨a, rest, rfl⟩ := List.exists_cons_of_ne_nil h
  exact List.ne_nil_of_mem (mem_inOrder.2 List.mem_cons_self)

/-- Words in canonical order are told by their members. -/
theorem inOrder_eq_inOrder_iff [IsLegible α] {words others : List α} :
    inOrder words = inOrder others ↔ ∀ a, a ∈ words ↔ a ∈ others := by
  constructor
  · intro h a
    rw [← mem_inOrder, h, mem_inOrder]
  · intro h
    exact List.filter_congr fun a _ => by simp only [h a]

end Vocabulary

/-! ## Readers in steps -/

section Except

variable {ε α β : Type}

theorem bind_eq_ok_iff {x : Except ε α} {f : α → Except ε β} {b : β} :
    (x >>= f) = .ok b ↔ ∃ a, x = .ok a ∧ f a = .ok b := by
  cases x with
  | error error =>
    refine ⟨fun h => ?_, nofun⟩
    cases h
  | ok a =>
    refine ⟨fun h => ⟨a, rfl, h⟩, ?_⟩
    rintro ⟨_, heq, h⟩
    cases heq
    exact h

theorem map_eq_ok_iff {x : Except ε α} {f : α → β} {b : β} :
    x.map f = .ok b ↔ ∃ a, x = .ok a ∧ f a = b := by
  cases x <;> simp [Except.map]

theorem bind_eq_error_iff {x : Except ε α} {f : α → Except ε β} {error : ε} :
    (x >>= f) = .error error ↔ x = .error error ∨ ∃ a, x = .ok a ∧ f a = .error error := by
  cases x <;> simp [bind, Except.bind]

theorem map_eq_error_iff {x : Except ε α} {f : α → β} {error : ε} :
    x.map f = .error error ↔ x = .error error := by
  cases x <;> simp [Except.map]

end Except

/-! ## Lists of words -/

/-- An optional map goes through if it does on every entry. -/
theorem mapM_eq_some_iff {α β : Type} {f : α → Option β} {xs : List α} {ys : List β} :
    xs.mapM f = some ys ↔ xs.map f = ys.map some := by
  induction xs generalizing ys with
  | nil => cases ys <;> simp
  | cons x rest ih =>
    cases ys with
    | nil => simp [List.mapM_cons, Option.bind_eq_some_iff]
    | cons y others =>
      simp only [List.mapM_cons, Option.bind_eq_bind, Option.bind_eq_some_iff, Option.pure_def,
        Option.some.injEq, List.cons.injEq, List.map_cons, ← ih]
      constructor
      · rintro ⟨z, hz, zs, hzs, rfl, rfl⟩
        exact ⟨hz, hzs⟩
      · rintro ⟨hy, hothers⟩
        exact ⟨y, hy, others, hothers, rfl, rfl⟩

theorem mapM_read?_map_name {α : Type} [Vocabulary α] [Vocabulary.IsLegible α] (words : List α) :
    (words.map Vocabulary.name).mapM Vocabulary.read? = some words := by
  rw [mapM_eq_some_iff, List.map_map]
  exact List.map_congr_left fun a _ => Vocabulary.IsLegible.read?_name a

section Words

variable {α : Type} [Vocabulary α] {items : List String} {words : List α}

theorem mem_words_iff (h : items.map Vocabulary.read? = words.map some) {a : α} :
    a ∈ words ↔ ∃ item ∈ items, Vocabulary.read? item = some a := by
  rw [← List.mem_map, h, List.mem_map]
  simp

theorem exists_word_of_mem (h : items.map Vocabulary.read? = words.map some) {item : String}
    (hitem : item ∈ items) : ∃ a ∈ words, Vocabulary.read? item = some a := by
  have hmem : Vocabulary.read? item ∈ words.map some := h ▸ List.mem_map_of_mem hitem
  obtain ⟨a, ha, heq⟩ := List.mem_map.1 hmem
  exact ⟨a, ha, heq.symm⟩

end Words

namespace Text

theorem mem_toList_join {sep : String} {xs : List String} {c : Char}
    (h : c ∈ (join sep xs).toList) : c ∈ sep.toList ∨ ∃ x ∈ xs, c ∈ x.toList := by
  induction xs with
  | nil => simp [join] at h
  | cons s rest ih =>
    cases rest with
    | nil => exact .inr ⟨s, List.mem_cons_self, h⟩
    | cons t rest =>
      rw [join_cons_cons, String.toList_append, String.toList_append, List.mem_append,
        List.mem_append] at h
      rcases h with (hs | hsep) | hrest
      · exact .inr ⟨s, List.mem_cons_self, hs⟩
      · exact .inl hsep
      · refine (ih hrest).imp_right ?_
        rintro ⟨x, hx, hc⟩
        exact ⟨x, List.mem_cons_of_mem _ hx, hc⟩

theorem isSolid_join {sep : String} {xs : List String} (hne : xs ≠ [])
    (h : ∀ x ∈ xs, IsSolid x) : IsSolid (join sep xs) := by
  induction xs with
  | nil => exact absurd rfl hne
  | cons s rest ih =>
    have hs : IsSolid s := h s List.mem_cons_self
    cases rest with
    | nil => exact hs
    | cons t rest =>
      have hrest : IsSolid (join sep (t :: rest)) :=
        ih (List.cons_ne_nil _ _) fun x hx => h x (List.mem_cons_of_mem _ hx)
      exact hs.append sep hrest

/-- Solid fields are their own trimmed fields. -/
theorem map_trim_eq_self {xs : List String} (h : ∀ x ∈ xs, IsSolid x) : xs.map trim = xs :=
  (List.map_congr_left fun x hx => (h x hx).trimmed).trans (List.map_id' xs)

end Text

end PerkGraph
