import Mathlib.Data.List.Induction
import Mathlib.Data.List.TakeWhile
import PerkGraph.Proofs.Spelling

/-!
# What rule texts are made of

The grammars of rule texts are made of fields between separators (`Text.HasFields`), halves on both sides of
the first one (`Text.HasHalves`), numerals (`Text.IsNumeral`) and words in any letter case
(`Vocabulary.Spells`). Each of them is said here without the reader that looks for it, and each reader finds
exactly what is said. Blanks at the ends of a text make no difference to its trimmed fields
(`Text.map_trim_split_trim`).

A text that follows no grammar is to blame in some part, which is an excerpt of it (`Text.IsExcerpt`). Of the
faults of a text a reader reports the first, in the order of its checks (`IsFirstFault`): a check that finds
something ends the search, and one that finds nothing can be left out. The entries of a list are checked from left
to right, each with those in front of it (`EntryFault`).
-/

namespace PerkGraph

namespace Text

/-! ## Excerpts -/

/-- The part stands in the text in one piece. -/
def IsExcerpt (part whole : String) : Prop :=
  part.toList <:+: whole.toList

theorem IsExcerpt.refl (s : String) : IsExcerpt s s :=
  List.infix_rfl

theorem IsExcerpt.trans {s t u : String} (hst : IsExcerpt s t) (htu : IsExcerpt t u) :
    IsExcerpt s u :=
  List.IsInfix.trans hst htu

theorem isExcerpt_append (before part after : String) :
    IsExcerpt part (before ++ part ++ after) := by
  simp only [IsExcerpt, String.toList_append]
  exact List.infix_append _ _ _

/-! ## Blanks at the ends -/

section Blanks

variable {blanks : String} (h : ∀ c ∈ blanks.toList, isBlank c = true)
include h

theorem trim_blank_append (s : String) : trim (blanks ++ s) = trim s := by
  rw [trim, String.toList_append, trimChars, List.dropWhile_append_of_pos h]
  rfl

theorem trim_append_blank (s : String) : trim (s ++ blanks) = trim s := by
  have hreverse : ∀ c ∈ blanks.toList.reverse, isBlank c = true :=
    fun c hc => h c (List.mem_reverse.1 hc)
  have hend (cs : List Char) : dropBlankEnd (cs ++ blanks.toList) = dropBlankEnd cs := by
    rw [dropBlankEnd, List.reverse_append, List.dropWhile_append_of_pos hreverse, dropBlankEnd]
  rw [trim, String.toList_append, trimChars, List.dropWhile_append]
  split
  · rename_i hall
    rw [List.dropWhile_eq_nil_iff.2 h, trim, trimChars, List.isEmpty_iff.1 hall]
  · rw [hend, trim, trimChars]

theorem not_mem_of_forall_isBlank {sep : Char} (hsep : isBlank sep = false) : sep ∉ blanks.toList := by
  intro hmem
  rw [h sep hmem] at hsep
  cases hsep

end Blanks

/-- A text is its trimmed text with blanks on both sides. -/
theorem exists_eq_blank_trim_blank (s : String) : ∃ before after : String,
    s = before ++ trim s ++ after ∧ (∀ c ∈ before.toList, isBlank c = true) ∧
      ∀ c ∈ after.toList, isBlank c = true := by
  let front := s.toList.takeWhile isBlank
  let rest := s.toList.dropWhile isBlank
  let back := (rest.reverse.takeWhile isBlank).reverse
  have hrest : dropBlankEnd rest ++ back = rest := by
    rw [dropBlankEnd, ← List.reverse_append, List.takeWhile_append_dropWhile, List.reverse_reverse]
  refine ⟨.ofList front, .ofList back, ?_, fun c hc => ?_, fun c hc => ?_⟩
  · have hwhole : front ++ (trimChars s.toList ++ back) = s.toList := by
      rw [trimChars, hrest, List.takeWhile_append_dropWhile]
    rw [← String.toList_inj]
    simp [hwhole]
  · rw [String.toList_ofList] at hc
    exact List.mem_takeWhile_imp hc
  · rw [String.toList_ofList, List.mem_reverse] at hc
    exact List.mem_takeWhile_imp hc

theorem isExcerpt_trim (s : String) : IsExcerpt (trim s) s := by
  obtain ⟨before, after, h, -, -⟩ := exists_eq_blank_trim_blank s
  have hpart := isExcerpt_append before (trim s) after
  rwa [← h] at hpart

/-! ## Fields -/

section Fields

variable {sep : Char} {s t : String} {fields others : List String}

/-- The text consists of these fields with the separator between neighbours. -/
structure ConsistsOf (sep : Char) (s : String) (fields : List String) : Prop where
  nonempty : fields ≠ []
  separate : ∀ field ∈ fields, sep ∉ field.toList
  joined : join (String.singleton sep) fields = s

theorem split_eq_iff : split sep s = fields ↔ ConsistsOf sep s fields := by
  constructor
  · rintro rfl
    exact ⟨split_ne_nil sep s, fun _ => not_mem_of_mem_split, join_split sep s⟩
  · rintro ⟨hne, hseparate, rfl⟩
    exact split_join hne hseparate

/-- The fields of the text between the separators, each trimmed. -/
def HasFields (sep : Char) (s : String) (fields : List String) : Prop :=
  ∃ untrimmed, ConsistsOf sep s untrimmed ∧ untrimmed.map trim = fields

theorem hasFields_iff : HasFields sep s fields ↔ (split sep s).map trim = fields := by
  simp only [HasFields, ← split_eq_iff, exists_eq_left']

theorem HasFields.unique (h : HasFields sep s fields) (h' : HasFields sep s others) :
    fields = others :=
  (hasFields_iff.1 h).symm.trans (hasFields_iff.1 h')

theorem hasFields_split (sep : Char) (s : String) : HasFields sep s ((split sep s).map trim) :=
  hasFields_iff.2 rfl

theorem isExcerpt_of_mem_join {sep field : String} (h : field ∈ fields) :
    IsExcerpt field (join sep fields) := by
  induction fields with
  | nil => cases h
  | cons first rest ih =>
    cases rest with
    | nil =>
      obtain rfl := List.mem_singleton.1 h
      exact .refl field
    | cons second rest =>
      rw [join_cons_cons]
      rcases List.mem_cons.1 h with rfl | hrest
      · have hfirst := isExcerpt_append "" field (sep ++ join sep (second :: rest))
        rwa [String.empty_append, ← String.append_assoc] at hfirst
      · have hlast := isExcerpt_append (first ++ sep) (join sep (second :: rest)) ""
        rw [String.append_empty] at hlast
        exact (ih hrest).trans hlast

theorem HasFields.isExcerpt (h : HasFields sep s fields) {field : String} (hfield : field ∈ fields) :
    IsExcerpt field s := by
  obtain ⟨untrimmed, hconsists, rfl⟩ := h
  obtain ⟨whole, hwhole, rfl⟩ := List.mem_map.1 hfield
  exact (isExcerpt_trim whole).trans (hconsists.joined ▸ isExcerpt_of_mem_join hwhole)

theorem map_trim_split_blank_append {blanks : String} (hsep : isBlank sep = false)
    (h : ∀ c ∈ blanks.toList, isBlank c = true) (s : String) :
    (split sep (blanks ++ s)).map trim = (split sep s).map trim := by
  have hout : sep ∉ blanks.toList := not_mem_of_forall_isBlank h hsep
  have hone {t : String} (ht : sep ∉ t.toList) : (split sep (blanks ++ t)).map trim = [trim t] := by
    have hfree : sep ∉ (blanks ++ t).toList := by
      rw [String.toList_append, List.mem_append, not_or]
      exact ⟨hout, ht⟩
    rw [split_of_not_mem hfree, List.map_singleton, trim_blank_append h]
  -- the blanks go to the first field
  cases hcut : cut sep s with
  | none =>
    have hfree := cut_eq_none_iff.1 hcut
    rw [hone hfree, split_of_not_mem hfree, List.map_singleton]
  | some halves =>
    obtain ⟨rfl, hfirst⟩ := cut_eq_some_iff.1 hcut
    rw [← String.append_assoc, ← String.append_assoc, split_append, split_append, List.map_append,
      List.map_append, hone hfirst, split_of_not_mem hfirst, List.map_singleton]

theorem map_trim_split_append_blank {blanks : String} (hsep : isBlank sep = false)
    (h : ∀ c ∈ blanks.toList, isBlank c = true) (s : String) :
    (split sep (s ++ blanks)).map trim = (split sep s).map trim := by
  have hout : sep ∉ blanks.toList := not_mem_of_forall_isBlank h hsep
  have hone {t : String} (ht : sep ∉ t.toList) : (split sep (t ++ blanks)).map trim = [trim t] := by
    have hfree : sep ∉ (t ++ blanks).toList := by
      rw [String.toList_append, List.mem_append, not_or]
      exact ⟨ht, hout⟩
    rw [split_of_not_mem hfree, List.map_singleton, trim_append_blank h]
  -- the blanks go to the last field
  by_cases hmem : sep ∈ s.toList
  · obtain ⟨last, front, hreverse, hlast⟩ := List.eq_append_cons_of_mem (List.mem_reverse.2 hmem)
    have hs : s = .ofList front.reverse ++ String.singleton sep ++ .ofList last.reverse := by
      rw [← String.toList_inj, ← List.reverse_inj, hreverse]
      simp
    have hfree : sep ∉ (String.ofList last.reverse).toList := by
      rwa [String.toList_ofList, List.mem_reverse]
    have hmove : String.ofList front.reverse ++ String.singleton sep ++ .ofList last.reverse ++ blanks =
        .ofList front.reverse ++ String.singleton sep ++ (.ofList last.reverse ++ blanks) :=
      String.append_assoc
    rw [hs, hmove, split_append, split_append, List.map_append, List.map_append, hone hfree,
      split_of_not_mem hfree, List.map_singleton]
  · rw [hone hmem, split_of_not_mem hmem, List.map_singleton]

/-- Blanks at the ends of a text make no difference to its trimmed fields. -/
theorem map_trim_split_trim (hsep : isBlank sep = false) (s : String) :
    (split sep (trim s)).map trim = (split sep s).map trim := by
  obtain ⟨before, after, hs, hbefore, hafter⟩ := exists_eq_blank_trim_blank s
  rw [hs, map_trim_split_append_blank hsep hafter, map_trim_split_blank_append hsep hbefore,
    trim_append_blank hafter, trim_blank_append hbefore, trim_trim]

theorem hasFields_iff_trim (hsep : isBlank sep = false) :
    HasFields sep s fields ↔ (split sep (trim s)).map trim = fields := by
  rw [hasFields_iff, map_trim_split_trim hsep]

/-! ## Halves -/

variable {front back : String}

/-- The texts in front of the first separator and behind it, each trimmed. -/
def HasHalves (sep : Char) (s front back : String) : Prop :=
  ∃ before after, s = before ++ String.singleton sep ++ after ∧ sep ∉ before.toList ∧
    trim before = front ∧ trim after = back

theorem hasHalves_iff : HasHalves sep s front back ↔
    ∃ before after, cut sep s = some (before, after) ∧ trim before = front ∧ trim after = back := by
  simp only [HasHalves, cut_eq_some_iff, and_assoc]

theorem HasHalves.mem (h : HasHalves sep s front back) : sep ∈ s.toList := by
  obtain ⟨before, after, rfl, -⟩ := h
  simp

theorem HasHalves.unique {front' back' : String} (h : HasHalves sep s front back)
    (h' : HasHalves sep s front' back') : front = front' ∧ back = back' := by
  obtain ⟨before, after, hcut, rfl, rfl⟩ := hasHalves_iff.1 h
  obtain ⟨before', after', hcut', rfl, rfl⟩ := hasHalves_iff.1 h'
  obtain ⟨rfl, rfl⟩ := Prod.mk.inj (Option.some.inj (hcut.symm.trans hcut'))
  exact ⟨rfl, rfl⟩

theorem HasHalves.isExcerpt_front (h : HasHalves sep s front back) : IsExcerpt front s := by
  obtain ⟨before, after, rfl, -, rfl, -⟩ := h
  have hpart := isExcerpt_append "" before (String.singleton sep ++ after)
  rw [String.empty_append, ← String.append_assoc] at hpart
  exact (isExcerpt_trim before).trans hpart

theorem HasHalves.isExcerpt_back (h : HasHalves sep s front back) : IsExcerpt back s := by
  obtain ⟨before, after, rfl, -, -, rfl⟩ := h
  have hpart := isExcerpt_append (before ++ String.singleton sep) after ""
  rw [String.append_empty] at hpart
  exact (isExcerpt_trim after).trans hpart

end Fields

/-! ## Numerals -/

/-- Decimal digits, at least one, and the number they denote. -/
inductive IsDecimal : List Char → Nat → Prop
  | digit {d : Nat} (h : d < 10) : IsDecimal [Nat.digitChar d] d
  | append {cs : List Char} {n d : Nat} (hcs : IsDecimal cs n) (h : d < 10) :
      IsDecimal (cs ++ [Nat.digitChar d]) (10 * n + d)

/-- A decimal numeral with at most one sign in front, and the number it denotes. -/
inductive IsNumeral : String → Int → Prop
  | unsigned {cs : List Char} {n : Nat} (h : IsDecimal cs n) : IsNumeral (.ofList cs) n
  | plus {cs : List Char} {n : Nat} (h : IsDecimal cs n) : IsNumeral (.ofList ('+' :: cs)) n
  | minus {cs : List Char} {n : Nat} (h : IsDecimal cs n) : IsNumeral (.ofList ('-' :: cs)) (-n)

theorem exists_digitChar {c : Char} (h : c.isDigit = true) : ∃ d < 10, c = Nat.digitChar d := by
  have hrange : 48 ≤ c.toNat ∧ c.toNat ≤ 57 := Char.isDigit_iff_toNat.1 h
  refine ⟨c.toNat - 48, by omega, Char.toNat_inj.1 ?_⟩
  rw [Nat.toNat_digitChar_of_lt_ten (by omega)]
  omega

theorem IsDecimal.isDigit {cs : List Char} {n : Nat} (h : IsDecimal cs n) :
    ∀ c ∈ cs, c.isDigit = true := by
  induction h with
  | digit hd =>
    intro c hc
    obtain rfl := List.mem_singleton.1 hc
    exact isDigit_digitChar hd
  | append _ hd ih =>
    intro c hc
    rcases List.mem_append.1 hc with hc | hc
    · exact ih c hc
    · obtain rfl := List.mem_singleton.1 hc
      exact isDigit_digitChar hd

theorem IsDecimal.ne_nil {cs : List Char} {n : Nat} (h : IsDecimal cs n) : cs ≠ [] := by
  cases h <;> simp

theorem IsDecimal.digitsValue_eq {cs : List Char} {n : Nat} (h : IsDecimal cs n) :
    digitsValue cs = n := by
  induction h with
  | digit hd => simpa [digitsValue] using digitValue_digitChar hd
  | append _ hd ih => rw [digitsValue_append_singleton, ih, digitValue_digitChar hd]

theorem isDecimal_digitsValue {cs : List Char} (hne : cs ≠ []) (h : ∀ c ∈ cs, c.isDigit = true) :
    IsDecimal cs (digitsValue cs) := by
  induction cs using List.reverseRecOn with
  | nil => exact absurd rfl hne
  | append_singleton cs c ih =>
    obtain ⟨d, hd, rfl⟩ := exists_digitChar (h c (List.mem_append_right _ (List.mem_singleton.2 rfl)))
    rw [digitsValue_append_singleton, digitValue_digitChar hd]
    by_cases hcs : cs = []
    · subst hcs
      simpa [digitsValue] using IsDecimal.digit hd
    · exact .append (ih hcs fun c hc => h c (List.mem_append_left _ hc)) hd

theorem natOfChars?_eq_some_iff {cs : List Char} {n : Nat} :
    natOfChars? cs = some n ↔ IsDecimal cs n := by
  rw [natOfChars?, Option.ite_none_right_eq_some, Option.some.injEq, List.all_eq_true]
  constructor
  · rintro ⟨⟨hne, hdigits⟩, rfl⟩
    exact isDecimal_digitsValue hne hdigits
  · exact fun h => ⟨⟨h.ne_nil, h.isDigit⟩, h.digitsValue_eq⟩

theorem isNumeral_of_intOfChars? {cs : List Char} {n : Int} (h : intOfChars? cs = some n) :
    IsNumeral (.ofList cs) n := by
  unfold intOfChars? at h
  split at h
  · obtain ⟨m, hm, rfl⟩ := Option.map_eq_some_iff.1 h
    exact .minus (natOfChars?_eq_some_iff.1 hm)
  · obtain ⟨m, hm, rfl⟩ := Option.map_eq_some_iff.1 h
    exact .plus (natOfChars?_eq_some_iff.1 hm)
  · obtain ⟨m, hm, rfl⟩ := Option.map_eq_some_iff.1 h
    exact .unsigned (natOfChars?_eq_some_iff.1 hm)

/-- The numerals are the texts that are read as whole numbers. -/
theorem readInt?_eq_some_iff {s : String} {n : Int} : readInt? s = some n ↔ IsNumeral s n := by
  constructor
  · intro h
    have hnumeral := isNumeral_of_intOfChars? h
    rwa [String.ofList_toList] at hnumeral
  · intro h
    cases h with
    | unsigned h =>
      rw [readInt?, String.toList_ofList, intOfChars?_of_isDigit h.isDigit,
        natOfChars?_eq_some_iff.2 h, Option.map_some]
    | plus h =>
      rw [readInt?, String.toList_ofList, intOfChars?, natOfChars?_eq_some_iff.2 h, Option.map_some]
    | minus h =>
      rw [readInt?, String.toList_ofList, intOfChars?, natOfChars?_eq_some_iff.2 h, Option.map_some]

end Text

theorem Points.read?_eq_some_iff {s : String} {p : Points} :
    read? s = some p ↔ Text.IsNumeral s p.val := by
  simp only [read?, Option.bind_eq_some_iff, ofInt?_eq_some_iff, exists_eq_right',
    Text.readInt?_eq_some_iff]

theorem Points.read?_eq_none_iff {s : String} :
    read? s = none ↔ ∀ p : Points, ¬Text.IsNumeral s p.val := by
  simp only [Option.eq_none_iff_forall_ne_some, ne_eq, read?_eq_some_iff]

/-! ## Words -/

namespace Vocabulary

variable {α : Type} [Vocabulary α] {s : String} {a b : α}

/-- The text spells the word, up to letter case and blanks at its ends. -/
def Spells (s : String) (a : α) : Prop :=
  ∃ spelling ∈ spellings a, Text.sameLetters spelling (Text.trim s) = true

/-- A vocabulary in which no text spells two words. -/
class IsUnambiguous (α : Type) [Vocabulary α] : Prop where
  read?_spelling (a : α) : ∀ spelling ∈ spellings a,
    Text.trim spelling = spelling ∧ read? spelling = some a

instance : IsUnambiguous Stat where
  read?_spelling a := by cases a <;> decide

instance : IsUnambiguous RunnerType where
  read?_spelling a := by cases a <;> decide

instance : IsUnambiguous RunnerStat where
  read?_spelling a := by cases a <;> decide

instance : IsUnambiguous NodeColor where
  read?_spelling a := by cases a <;> decide

instance : IsUnambiguous ConditionKind where
  read?_spelling a := by
    cases a with
    | extension kind => cases kind <;> decide
    | _ => decide

instance : IsUnambiguous GateKind where
  read?_spelling a := by cases a <;> decide

/-- A text is read as the word it spells. -/
theorem read?_eq_some_iff_spells [IsUnambiguous α] : read? s = some a ↔ Spells s a := by
  constructor
  · intro h
    have hany := List.find?_some h
    exact List.any_eq_true.1 hany
  · rintro ⟨spelling, hspelling, hsame⟩
    obtain ⟨htrim, hread⟩ := IsUnambiguous.read?_spelling a spelling hspelling
    rw [← read?_congr (s := spelling) (by rwa [htrim]), hread]

theorem read?_eq_none_iff [IsUnambiguous α] :
    (read? s : Option α) = none ↔ ∀ a : α, ¬Spells s a := by
  simp only [Option.eq_none_iff_forall_ne_some, ne_eq, read?_eq_some_iff_spells]

theorem Spells.unique [IsUnambiguous α] (h : Spells s a) (h' : Spells s b) : a = b := by
  rw [← read?_eq_some_iff_spells] at h h'
  exact Option.some.inj (h.symm.trans h')

theorem read?_trim (s : String) : (read? (Text.trim s) : Option α) = read? s :=
  read?_congr (by rw [Text.trim_trim]; exact Text.sameLetters_refl _)

/-- The words are those that the items spell, once each and in canonical order. -/
structure SpellsAll [DecidableEq α] (items : List String) (words : List α) : Prop where
  spelled : ∀ item ∈ items, ∃ word : α, Spells item word
  mem_iff : ∀ word, word ∈ words ↔ ∃ item ∈ items, Spells item word
  inOrder_eq : inOrder words = words

theorem exists_words [IsUnambiguous α] {items : List String}
    (h : ∀ item ∈ items, ∃ word : α, Spells item word) :
    ∃ words : List α, items.map read? = words.map some := by
  induction items with
  | nil => exact ⟨[], rfl⟩
  | cons item rest ih =>
    obtain ⟨⟨word, hword⟩, hrest⟩ := List.forall_mem_cons.1 h
    obtain ⟨words, hwords⟩ := ih hrest
    exact ⟨word :: words, by rw [List.map_cons, List.map_cons, read?_eq_some_iff_spells.2 hword, hwords]⟩

theorem spellsAll_iff [DecidableEq α] [IsLegible α] [IsUnambiguous α] {items : List String}
    {words : List α} :
    SpellsAll items words ↔ ∃ found, items.map read? = found.map some ∧ inOrder found = words := by
  constructor
  · rintro ⟨hspelled, hmem, horder⟩
    obtain ⟨found, hfound⟩ := exists_words hspelled
    refine ⟨found, hfound, ?_⟩
    rw [← horder, inOrder_eq_inOrder_iff]
    intro word
    simp only [hmem, mem_words_iff hfound, read?_eq_some_iff_spells]
  · rintro ⟨found, hfound, rfl⟩
    refine ⟨fun item hitem => ?_, fun word => ?_, inOrder_inOrder found⟩
    · obtain ⟨word, -, hread⟩ := exists_word_of_mem hfound hitem
      exact ⟨word, read?_eq_some_iff_spells.1 hread⟩
    · simp only [mem_inOrder, mem_words_iff hfound, read?_eq_some_iff_spells]

end Vocabulary

/-! ## First faults -/

section Faults

variable {ε : Type} {faults : Nat → ε → Prop} {error : ε}

/-- The error is the first of the faults. Each fault is given with the place of the check that finds it. -/
def IsFirstFault (faults : Nat → ε → Prop) (error : ε) : Prop :=
  ∃ place, faults place error ∧ ∀ earlier < place, ∀ other, ¬faults earlier other

theorem isFirstFault_congr {others : Nat → ε → Prop}
    (h : ∀ place other, faults place other ↔ others place other) :
    IsFirstFault faults error ↔ IsFirstFault others error := by
  simp only [IsFirstFault, h]

/-- A check that finds something ends the search. -/
theorem isFirstFault_iff_of_found (found : ε) (h : ∀ other, faults 0 other ↔ other = found) :
    IsFirstFault faults error ↔ error = found := by
  have hfound : faults 0 found := (h found).2 rfl
  constructor
  · rintro ⟨place, hfault, hfirst⟩
    cases place with
    | zero => exact (h error).1 hfault
    | succ place => exact absurd hfound (hfirst 0 (Nat.zero_lt_succ place) found)
  · rintro rfl
    exact ⟨0, hfound, fun _ hlt => absurd hlt (Nat.not_lt_zero _)⟩

/-- A check that finds nothing can be left out. -/
theorem isFirstFault_iff_of_passed (h : ∀ other, ¬faults 0 other) :
    IsFirstFault faults error ↔ IsFirstFault (fun place => faults (place + 1)) error := by
  constructor
  · rintro ⟨place, hfault, hfirst⟩
    cases place with
    | zero => exact absurd hfault (h error)
    | succ place => exact ⟨place, hfault, fun earlier hlt => hfirst (earlier + 1) (by omega)⟩
  · rintro ⟨place, hfault, hfirst⟩
    refine ⟨place + 1, hfault, fun earlier hlt => ?_⟩
    cases earlier with
    | zero => exact h
    | succ earlier => exact hfirst earlier (by omega)

end Faults

section EntryFaults

variable {α ε : Type} {bad : List α → α → ε → Prop} {front rest : List α} {entry : α} {place : Nat}
  {error : ε}

/-- The faults of a list's entries from left to right, with the entries in front of the list. -/
def EntryFault (bad : List α → α → ε → Prop) (front entries : List α) (place : Nat) (error : ε) : Prop :=
  ∃ entry, entries[place]? = some entry ∧ bad (front ++ entries.take place) entry error

theorem not_isFirstFault_entryFault_nil : ¬IsFirstFault (EntryFault bad front []) error := by
  rintro ⟨place, ⟨entry, hentry, -⟩, -⟩
  cases hentry

theorem entryFault_cons_zero :
    EntryFault bad front (entry :: rest) 0 error ↔ bad front entry error := by
  simp [EntryFault]

theorem entryFault_cons_succ : EntryFault bad front (entry :: rest) (place + 1) error ↔
    EntryFault bad (front ++ [entry]) rest place error := by
  simp [EntryFault]

/-- An entry that is not to blame goes to those in front. -/
theorem isFirstFault_entryFault_cons (h : ∀ other, ¬bad front entry other) :
    IsFirstFault (EntryFault bad front (entry :: rest)) error ↔
      IsFirstFault (EntryFault bad (front ++ [entry]) rest) error := by
  rw [isFirstFault_iff_of_passed fun other hfault => h other (entryFault_cons_zero.1 hfault)]
  exact isFirstFault_congr fun _ _ => entryFault_cons_succ

theorem isFirstFault_entryFault_cons_of_bad (found : ε) (h : ∀ other, bad front entry other ↔ other = found) :
    IsFirstFault (EntryFault bad front (entry :: rest)) error ↔ error = found :=
  isFirstFault_iff_of_found found fun other => entryFault_cons_zero.trans (h other)

/-- The entry to blame, and those in front of it. -/
theorem exists_bad_of_isFirstFault {entries : List α} (h : IsFirstFault (EntryFault bad front entries) error) :
    ∃ before entry after, entries = before ++ entry :: after ∧ bad (front ++ before) entry error := by
  obtain ⟨place, ⟨entry, hentry, hbad⟩, -⟩ := h
  obtain ⟨hlt, rfl⟩ := List.getElem?_eq_some_iff.1 hentry
  refine ⟨entries.take place, entries[place], entries.drop (place + 1), ?_, hbad⟩
  rw [← List.drop_eq_getElem_cons hlt, List.take_append_drop]

end EntryFaults

end PerkGraph
