/-! # Blanks

Which characters count as blank, and how a text is trimmed of them. A character is blank if it has
the Unicode property `White_Space`; the property is kept as a table of closed ranges of code points.
Main statement: trimming is idempotent (`trim_trim`), so a trimmed text can be stored once and for all.
-/

namespace PerkGraph.Text

/-- The closed ranges of code points with the property `White_Space`, in ascending order. -/
def blankRanges : List (Nat × Nat) :=
  [(0x0009, 0x000D), (0x0020, 0x0020), (0x0085, 0x0085), (0x00A0, 0x00A0), (0x1680, 0x1680),
   (0x2000, 0x200A), (0x2028, 0x2029), (0x202F, 0x202F), (0x205F, 0x205F), (0x3000, 0x3000)]

/-- A character with the property `White_Space`. -/
def isBlank (c : Char) : Bool :=
  blankRanges.any fun range => range.1 ≤ c.toNat && c.toNat ≤ range.2

/-- Core's ASCII white space is blank. -/
theorem isBlank_of_isWhitespace {c : Char} (h : c.isWhitespace = true) : isBlank c = true := by
  simp only [Char.isWhitespace, Bool.or_eq_true, decide_eq_true_eq] at h
  rcases h with ((rfl | rfl) | rfl) | rfl <;> decide

/-! ## Trimming a list of characters -/

/-- The characters without the blanks at their end. -/
def dropBlankEnd (cs : List Char) : List Char :=
  (cs.reverse.dropWhile isBlank).reverse

/-- The characters without the blanks at either end. -/
def trimChars (cs : List Char) : List Char :=
  dropBlankEnd (cs.dropWhile isBlank)

theorem dropBlankEnd_eq_self_iff {cs : List Char} :
    dropBlankEnd cs = cs ↔ ∀ c, cs.getLast? = some c → isBlank c = false := by
  rw [dropBlankEnd, List.reverse_eq_iff, List.getLast?_eq_head?_reverse]
  cases cs.reverse with
  | nil => simp
  | cons c rest =>
    cases h : isBlank c
    · simp [h]
    · constructor
      · intro hd
        have := congrArg List.length hd
        have hle : (rest.dropWhile isBlank).length ≤ rest.length :=
          (List.dropWhile_sublist isBlank).length_le
        simp [h] at this
        omega
      · intro hc
        simpa [h] using hc c rfl

theorem dropWhile_isBlank_twice (cs : List Char) :
    (cs.dropWhile isBlank).dropWhile isBlank = cs.dropWhile isBlank := by
  induction cs with
  | nil => rfl
  | cons c rest ih => cases h : isBlank c <;> simp [h, ih]

theorem dropBlankEnd_dropBlankEnd (cs : List Char) :
    dropBlankEnd (dropBlankEnd cs) = dropBlankEnd cs := by
  simp [dropBlankEnd, dropWhile_isBlank_twice]

/-- What is left after trimming the end is a beginning of the text. -/
theorem dropBlankEnd_isPrefix (cs : List Char) : dropBlankEnd cs <+: cs := by
  have h : (cs.reverse.dropWhile isBlank) <:+ cs.reverse := List.dropWhile_suffix isBlank
  simpa [dropBlankEnd] using List.reverse_prefix.2 h

theorem trimChars_eq_self_iff {cs : List Char} :
    trimChars cs = cs ↔
      (∀ c, cs.head? = some c → isBlank c = false) ∧
        (∀ c, cs.getLast? = some c → isBlank c = false) := by
  cases cs with
  | nil => simp [trimChars, dropBlankEnd]
  | cons c rest =>
    cases h : isBlank c
    · have hd : (c :: rest).dropWhile isBlank = c :: rest := by simp [h]
      rw [trimChars, hd, dropBlankEnd_eq_self_iff]
      simp [h]
    · constructor
      · intro ht
        have hlen := congrArg List.length ht
        have h1 : (dropBlankEnd ((c :: rest).dropWhile isBlank)).length ≤
            ((c :: rest).dropWhile isBlank).length := (dropBlankEnd_isPrefix _).length_le
        have h2 : (rest.dropWhile isBlank).length ≤ rest.length :=
          (List.dropWhile_sublist isBlank).length_le
        simp [h] at h1
        simp [trimChars, h] at hlen
        omega
      · intro hc
        exact absurd (hc.1 c rfl) (by simp [h])

/-- The first character left by trimming the start is not blank. -/
theorem head?_dropWhile_isBlank {cs : List Char} {c : Char}
    (h : (cs.dropWhile isBlank).head? = some c) : isBlank c = false := by
  induction cs with
  | nil => simp at h
  | cons d rest ih =>
    cases hd : isBlank d
    · simp [hd] at h
      exact h ▸ hd
    · simp [hd] at h
      exact ih h

theorem trimChars_trimChars (cs : List Char) : trimChars (trimChars cs) = trimChars cs := by
  rw [trimChars_eq_self_iff]
  constructor
  · intro c hc
    have hp : trimChars cs <+: cs.dropWhile isBlank := dropBlankEnd_isPrefix _
    obtain ⟨rest, hrest⟩ := hp
    apply @head?_dropWhile_isBlank cs
    rw [← hrest, List.head?_append, hc]
    rfl
  · exact dropBlankEnd_eq_self_iff.1 (dropBlankEnd_dropBlankEnd _)

/-! ## Trimming a text -/

/-- The text without the blanks at either end. -/
def trim (s : String) : String :=
  String.ofList (trimChars s.toList)

@[simp] theorem toList_trim (s : String) : (trim s).toList = trimChars s.toList := by
  simp [trim]

@[simp] theorem trim_trim (s : String) : trim (trim s) = trim s := by
  rw [trim, toList_trim, trimChars_trimChars]
  rfl

theorem mem_of_mem_trim {c : Char} {s : String} (h : c ∈ (trim s).toList) : c ∈ s.toList := by
  rw [toList_trim] at h
  exact (List.dropWhile_sublist isBlank).subset ((dropBlankEnd_isPrefix _).subset h)

theorem trim_eq_self_iff {s : String} :
    trim s = s ↔ (∀ c, s.toList.head? = some c → isBlank c = false) ∧
      ∀ c, s.toList.getLast? = some c → isBlank c = false := by
  rw [← trimChars_eq_self_iff, ← toList_trim, String.toList_inj]

/-! ## Solid texts -/

/-- A text that is not empty and has no blank at either end. -/
structure IsSolid (s : String) : Prop where
  nonempty : s ≠ ""
  trimmed : trim s = s

theorem isSolid_of_forall {s : String} (hne : s ≠ "") (h : ∀ c ∈ s.toList, isBlank c = false) :
    IsSolid s :=
  ⟨hne, trim_eq_self_iff.2 ⟨fun c hc => h c (List.mem_of_head? hc),
    fun c hc => h c (List.mem_of_getLast? hc)⟩⟩

/-- Whatever stands between two solid texts, the whole is solid. -/
theorem IsSolid.append {s t : String} (hs : IsSolid s) (between : String) (ht : IsSolid t) :
    IsSolid (s ++ between ++ t) := by
  obtain ⟨hs0, hs⟩ := hs
  obtain ⟨ht0, ht⟩ := ht
  have hs' : s.toList ≠ [] := fun h => hs0 (String.toList_eq_nil_iff.1 h)
  have ht' : t.toList ≠ [] := fun h => ht0 (String.toList_eq_nil_iff.1 h)
  constructor
  · intro h
    rw [← String.toList_eq_nil_iff] at h
    simp [hs'] at h
  · rw [trim_eq_self_iff] at hs ht ⊢
    constructor
    · intro c hc
      obtain ⟨first, rest, hfirst⟩ := List.exists_cons_of_ne_nil hs'
      refine hs.1 c ?_
      simpa [hfirst] using hc
    · intro c hc
      have hlast := List.dropLast_concat_getLast ht'
      refine ht.2 c ?_
      rw [String.toList_append, ← hlast] at hc
      rw [← hlast]
      simpa using hc

end PerkGraph.Text
