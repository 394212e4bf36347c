/-! # Fields

Cutting a text at separator characters and putting the fields together again, and comparing names
without regard to letter case. Main statements: joining the fields of a text with the separator gives
the text back (`join_split`), and texts without separators are the fields of the text that joins them
(`split_join`).
-/

namespace PerkGraph.Text

/-! ## Cutting a list of characters -/

/-- The fields between the separators: the first one, and the others in order. A text without
separators is one field. -/
def fields (sep : Char) : List Char → List Char × List (List Char)
  | [] => ([], [])
  | c :: rest =>
    let (first, others) := fields sep rest
    if c = sep then ([], first :: others) else (c :: first, others)

theorem fields_of_not_mem {sep : Char} {cs : List Char} (h : sep ∉ cs) : fields sep cs = (cs, []) := by
  induction cs with
  | nil => rfl
  | cons c rest ih =>
    have hc : c ≠ sep := fun heq => h (heq ▸ List.mem_cons_self)
    have hrest : sep ∉ rest := fun hmem => h (List.mem_cons_of_mem _ hmem)
    simp only [fields, ih hrest, hc, if_false]

/-- A separator between two texts separates their fields. -/
theorem fields_append (sep : Char) (cs rest : List Char) :
    fields sep (cs ++ sep :: rest) =
      ((fields sep cs).1, (fields sep cs).2 ++ (fields sep rest).1 :: (fields sep rest).2) := by
  induction cs with
  | nil => simp only [List.nil_append, fields, if_true]
  | cons c cs ih =>
    rw [List.cons_append, fields, ih, fields]
    by_cases h : c = sep
    · simp only [h, if_true, List.cons_append]
    · simp only [h, if_false]

theorem not_mem_fields (sep : Char) (cs : List Char) :
    sep ∉ (fields sep cs).1 ∧ ∀ field ∈ (fields sep cs).2, sep ∉ field := by
  induction cs with
  | nil => simp [fields]
  | cons c rest ih =>
    obtain ⟨hfirst, hothers⟩ := ih
    by_cases h : c = sep
    · simp only [fields, h, if_true, List.mem_cons, forall_eq_or_imp]
      exact ⟨List.not_mem_nil, hfirst, hothers⟩
    · simp only [fields, h, if_false, List.mem_cons, not_or]
      exact ⟨⟨Ne.symm h, hfirst⟩, hothers⟩

/-- The text before the first separator and the text after it. -/
def cutChars (sep : Char) : List Char → Option (List Char × List Char)
  | [] => none
  | c :: rest =>
    if c = sep then some ([], rest)
    else (cutChars sep rest).map fun halves => (c :: halves.1, halves.2)

/-- A cut takes out one separator, the first. -/
theorem cutChars_eq_some_iff {sep : Char} {cs before after : List Char} :
    cutChars sep cs = some (before, after) ↔ cs = before ++ sep :: after ∧ sep ∉ before := by
  induction cs generalizing before with
  | nil => simp [cutChars]
  | cons c rest ih =>
    by_cases h : c = sep
    · subst h
      cases before with
      | nil => simp [cutChars]
      | cons b before =>
        simp only [cutChars, if_true, Option.some.injEq, Prod.mk.injEq, List.cons_append,
          List.cons.injEq, List.mem_cons, not_or]
        constructor
        · intro hb; exact absurd hb.1 (by simp)
        · rintro ⟨⟨rfl, -⟩, hne, -⟩; exact absurd rfl hne
    · cases before with
      | nil => simp [cutChars, h]
      | cons b before =>
        have hi := @ih before
        simp only [cutChars, h, if_false, Option.map_eq_some_iff, Prod.mk.injEq, List.cons.injEq,
          Prod.exists, List.cons_append, List.mem_cons, not_or]
        constructor
        · rintro ⟨x, y, hxy, ⟨rfl, rfl⟩, rfl⟩
          obtain ⟨h1, h2⟩ := hi.1 hxy
          exact ⟨⟨rfl, h1⟩, fun he => h he.symm, h2⟩
        · rintro ⟨⟨rfl, h1⟩, -, h2⟩
          exact ⟨before, after, hi.2 ⟨h1, h2⟩, ⟨rfl, rfl⟩, rfl⟩

theorem cutChars_eq_none_iff {sep : Char} {cs : List Char} :
    cutChars sep cs = none ↔ sep ∉ cs := by
  induction cs with
  | nil => simp [cutChars]
  | cons c rest ih =>
    by_cases h : c = sep
    · simp [cutChars, h]
    · simp [cutChars, h, ih, Ne.symm h]

/-! ## Cutting a text -/

/-- The fields of a text between the separators, at least one. -/
def split (sep : Char) (s : String) : List String :=
  let (first, others) := fields sep s.toList
  (first :: others).map String.ofList

def cut (sep : Char) (s : String) : Option (String × String) :=
  (cutChars sep s.toList).map fun halves => (String.ofList halves.1, String.ofList halves.2)

/-- The texts one after another with the separator between neighbours. -/
def join (sep : String) : List String → String
  | [] => ""
  | [s] => s
  | s :: t :: rest => s ++ sep ++ join sep (t :: rest)

/-- The texts one after another, each ended by a newline. -/
def lines : List String → String
  | [] => ""
  | s :: rest => s ++ "\n" ++ lines rest

theorem join_cons_cons (sep s t : String) (rest : List String) :
    join sep (s :: t :: rest) = s ++ sep ++ join sep (t :: rest) := rfl

theorem join_append_singleton (sep x : String) {xs : List String} (h : xs ≠ []) :
    join sep (xs ++ [x]) = join sep xs ++ sep ++ x := by
  induction xs with
  | nil => exact absurd rfl h
  | cons s rest ih =>
    cases rest with
    | nil => rfl
    | cons t rest =>
      rw [List.cons_append, List.cons_append, join_cons_cons, join_cons_cons, ← List.cons_append,
        ih (List.cons_ne_nil _ _)]
      simp only [String.append_assoc]

private theorem toList_join_fields (sep : Char) (cs : List Char) :
    (join (String.singleton sep)
      (((fields sep cs).1 :: (fields sep cs).2).map String.ofList)).toList = cs := by
  induction cs with
  | nil => simp [fields, join]
  | cons c rest ih =>
    by_cases h : c = sep
    · subst h
      simp only [fields, if_true, List.map_cons, join_cons_cons, String.toList_append,
        String.toList_ofList, String.toList_singleton, List.nil_append, List.cons_append] at ih ⊢
      rw [ih]
    · simp only [fields, h, if_false, List.map_cons] at ih ⊢
      cases ho : (fields sep rest).2 with
      | nil => simpa [ho, join] using ih
      | cons f fs =>
        simp only [ho, List.map_cons, join_cons_cons, String.toList_append, String.toList_ofList,
          List.cons_append] at ih ⊢
        rw [ih]

/-- Joining the fields of a text with the separator gives the text back. -/
theorem join_split (sep : Char) (s : String) : join (String.singleton sep) (split sep s) = s := by
  apply String.toList_inj.1
  exact toList_join_fields sep s.toList

theorem not_mem_of_mem_split {sep : Char} {s field : String} (h : field ∈ split sep s) :
    sep ∉ field.toList := by
  obtain ⟨hfirst, hothers⟩ := not_mem_fields sep s.toList
  simp only [split, List.map_cons, List.mem_cons, List.mem_map] at h
  rcases h with rfl | ⟨cs, hcs, rfl⟩
  · rwa [String.toList_ofList]
  · rw [String.toList_ofList]
    exact hothers cs hcs

theorem split_ne_nil (sep : Char) (s : String) : split sep s ≠ [] := by
  simp [split]

theorem split_of_not_mem {sep : Char} {s : String} (h : sep ∉ s.toList) : split sep s = [s] := by
  simp [split, fields_of_not_mem h]

theorem split_append (sep : Char) (s t : String) :
    split sep (s ++ String.singleton sep ++ t) = split sep s ++ split sep t := by
  simp [split, fields_append]

/-- Texts without separators are the fields of the text that joins them. -/
theorem split_join {sep : Char} {xs : List String} (hne : xs ≠ [])
    (h : ∀ x ∈ xs, sep ∉ x.toList) : split sep (join (String.singleton sep) xs) = xs := by
  induction xs with
  | nil => exact absurd rfl hne
  | cons s rest ih =>
    have hs : sep ∉ s.toList := h s List.mem_cons_self
    cases rest with
    | nil => exact split_of_not_mem hs
    | cons t rest =>
      have hrest : ∀ x ∈ t :: rest, sep ∉ x.toList := fun x hx => h x (List.mem_cons_of_mem _ hx)
      rw [join_cons_cons, split_append, split_of_not_mem hs, ih (List.cons_ne_nil _ _) hrest]
      rfl

theorem cut_eq_some_iff {sep : Char} {s before after : String} :
    cut sep s = some (before, after) ↔
      s = before ++ String.singleton sep ++ after ∧ sep ∉ before.toList := by
  have hcs : s = before ++ String.singleton sep ++ after ↔
      s.toList = before.toList ++ sep :: after.toList := by
    rw [← String.toList_inj]
    simp
  rw [hcs, ← cutChars_eq_some_iff, cut, Option.map_eq_some_iff]
  constructor
  · rintro ⟨⟨xs, ys⟩, hcut, hpair⟩
    cases hpair
    simpa using hcut
  · intro hcut
    exact ⟨_, hcut, by simp⟩

theorem cut_eq_none_iff {sep : Char} {s : String} : cut sep s = none ↔ sep ∉ s.toList := by
  rw [cut, Option.map_eq_none_iff, cutChars_eq_none_iff]

/-! ## Letter case -/

/-- Two texts that differ at most in the case of the letters A to Z. -/
def sameLetters (s t : String) : Bool :=
  s.toList.map Char.toLower == t.toList.map Char.toLower

theorem sameLetters_refl (s : String) : sameLetters s s = true := by
  simp [sameLetters]

theorem sameLetters_comm (s t : String) : sameLetters s t = sameLetters t s := by
  simp [sameLetters, Bool.beq_comm]

theorem sameLetters_trans {s t u : String} (hst : sameLetters s t = true)
    (htu : sameLetters t u = true) : sameLetters s u = true := by
  simp only [sameLetters, beq_iff_eq] at hst htu ⊢
  exact hst.trans htu

/-- A text compares like any other spelling of it. -/
theorem sameLetters_congr {s t : String} (h : sameLetters s t = true) (u : String) :
    sameLetters u s = sameLetters u t := by
  simp only [sameLetters, beq_iff_eq] at h ⊢
  rw [h]

end PerkGraph.Text
