import PerkGraph.Proofs.EffectText
import PerkGraph.Proofs.TextGrammar

/-!
# The grammar of conditions

A condition text has a word in front of its first colon and a value behind it, or a word alone
(`Condition.HasParts`). The word spells a kind, and the kind says what the value must be (`Condition.Fits`):
nothing at all, a word, a list of words, a comparison or, for an extension, anything. A comparison holds its sign
as a whole run of sign characters (`Condition.IsComparison`), so no part of `=>` or `<>` is taken for a sign, and
two runs apart are not glued into one.

Main statement: every text denotes a condition, has an unknown kind or is malformed, and the reader tells which
(`Condition.read_classifies`).
-/

namespace PerkGraph

theorem Comparison.ofSign?_eq_some_iff {s : String} {comparison : Comparison} :
    ofSign? s = some comparison ↔ s = comparison.sign := by
  constructor
  · intro h
    have hsign := List.find?_some h
    exact (beq_iff_eq.1 hsign).symm
  · rintro rfl
    exact ofSign?_sign comparison

theorem Comparison.toList_sign_ne_nil (comparison : Comparison) : comparison.sign.toList ≠ [] := by
  cases comparison <;> decide

namespace Condition

variable {raw word : String} {value : Option String} {kind : ConditionKind} {condition : Condition}

/-! ## Parts -/

/-- The word in front of the first colon and the value behind it. A text without a colon is a word without a
value. -/
inductive HasParts (raw : String) : String → Option String → Prop
  | bare (h : ':' ∉ (Text.trim raw).toList) : HasParts raw (Text.trim raw) none
  | valued {word value : String} (h : Text.HasHalves ':' (Text.trim raw) word value) :
      HasParts raw word (some value)

theorem hasParts_iff : HasParts raw word value ↔ parts (Text.trim raw) = (word, value) := by
  constructor
  · intro h
    cases h with
    | bare h => exact parts_eq_none_iff.2 ⟨rfl, h⟩
    | valued h =>
      obtain ⟨before, after, htrimmed, hfirst, rfl, rfl⟩ := h
      exact parts_eq_some_iff.2 ⟨before, after, htrimmed, hfirst, rfl, rfl⟩
  · intro h
    cases value with
    | none =>
      obtain ⟨rfl, hcolon⟩ := parts_eq_none_iff.1 h
      exact .bare hcolon
    | some value =>
      obtain ⟨before, after, htrimmed, hfirst, rfl, rfl⟩ := parts_eq_some_iff.1 h
      exact .valued ⟨before, after, htrimmed, hfirst, rfl, rfl⟩

theorem HasParts.isExcerpt (h : HasParts raw word value) : Text.IsExcerpt word raw := by
  cases h with
  | bare _ => exact Text.isExcerpt_trim raw
  | valued h => exact h.isExcerpt_front.trans (Text.isExcerpt_trim raw)

/-! ## Comparisons -/

/-- The value is a stat, a sign and a number. The sign begins with the first sign character and ends where
the next character is none. -/
def IsComparison (value : String) (stat : RunnerStat) (comparison : Comparison) (number : Points) :
    Prop :=
  ∃ before after, value = before ++ comparison.sign ++ after ∧
    (∀ c ∈ before.toList, Comparison.isSignChar c = false) ∧
    (∀ c, after.toList.head? = some c → Comparison.isSignChar c = false) ∧
    Vocabulary.Spells before stat ∧ Text.IsNumeral (Text.trim after) number.val

theorem takeWhile_dropWhile_append {α : Type} {p : α → Bool} {front rest : List α}
    (hfront : ∀ a ∈ front, p a = true) (hrest : ∀ a, rest.head? = some a → p a = false) :
    (front ++ rest).takeWhile p = front ∧ (front ++ rest).dropWhile p = rest := by
  rw [List.takeWhile_append_of_pos hfront, List.dropWhile_append_of_pos hfront]
  cases rest with
  | nil => simp
  | cons a rest => simp [hrest a rfl]

theorem readRunnerStat?_eq_some_iff {value : String} :
    readRunnerStat? value = some condition ↔ ∃ stat comparison number,
      IsComparison value stat comparison number ∧
        condition = runnerStat stat comparison number := by
  simp only [readRunnerStat?, Option.bind_eq_bind, Option.bind_eq_some_iff, Option.pure_def,
    Option.some.injEq, Vocabulary.read?_eq_some_iff_spells, Comparison.ofSign?_eq_some_iff,
    Points.read?_eq_some_iff]
  constructor
  · rintro ⟨stat, hstat, comparison, hsign, number, hnumber, rfl⟩
    refine ⟨stat, comparison, number, ⟨_, _, ?_, ?_, ?_, hstat, hnumber⟩, rfl⟩
    · rw [← hsign, ← String.toList_inj]
      simp
    · intro c hc
      rw [String.toList_ofList] at hc
      simpa using List.mem_takeWhile_imp hc
    · intro c hc
      rw [String.toList_ofList] at hc
      have hstop := List.head?_dropWhile_not Comparison.isSignChar
        (value.toList.dropWhile fun c => !Comparison.isSignChar c)
      rwa [hc] at hstop
  · rintro ⟨stat, comparison, number, ⟨before, after, rfl, hbefore, hafter, hstat, hnumber⟩, rfl⟩
    have hsign : ∀ c ∈ comparison.sign.toList, Comparison.isSignChar c = true :=
      fun c hc => Comparison.isSignChar_of_mem_sign hc
    have hfront : ∀ c ∈ before.toList, (!Comparison.isSignChar c) = true := by
      simpa using hbefore
    have hstop : ∀ c, (comparison.sign.toList ++ after.toList).head? = some c →
        (!Comparison.isSignChar c) = false := by
      obtain ⟨first, others, hfirst⟩ := List.exists_cons_of_ne_nil comparison.toList_sign_ne_nil
      intro c hc
      rw [hfirst, List.cons_append, List.head?_cons, Option.some.injEq] at hc
      simp [hsign c (hfirst ▸ hc ▸ List.mem_cons_self)]
    obtain ⟨hstatChars, hrest⟩ := takeWhile_dropWhile_append hfront hstop
    obtain ⟨hsignChars, hnumberChars⟩ := takeWhile_dropWhile_append hsign hafter
    simp only [String.toList_append, List.append_assoc, hstatChars, hrest, hsignChars, hnumberChars,
      String.ofList_toList]
    exact ⟨stat, hstat, comparison, rfl, number, hnumber, rfl⟩

/-! ## Values -/

/-- The value behind a kind's word makes up the condition. One case for each kind. -/
inductive Fits : ConditionKind → Option String → Condition → Prop
  | always : Fits .always none .always
  | runnerType {value : String} {type : RunnerType} (h : Vocabulary.Spells value type) :
      Fits .runnerType (some value) (.runnerType type)
  | runnerStat {value : String} {stat : RunnerStat} {comparison : Comparison} {number : Points}
      (h : IsComparison value stat comparison number) :
      Fits .runnerStat (some value) (.runnerStat stat comparison number)
  | nodeColor {value : String} {color : NodeColor} (h : Vocabulary.Spells value color) :
      Fits .nodeColor (some value) (.nodeColor color)
  | nodeColorCombo {value : String} {pieces : List String} {colors : List NodeColor}
      (hpieces : Text.HasFields ',' value pieces) (h : Vocabulary.SpellsAll pieces colors) :
      Fits .nodeColorCombo (some value) (.nodeColorCombo colors)
  | extension {kind : ExtensionKind} {value argument : Option String}
      (h : ∀ text, argument = some text ↔ value = some text ∧ text ≠ "") :
      Fits (.extension kind) value (.extension kind argument)

/-- Nothing but an extension makes something of a blank value. -/
theorem readValue?_empty (kind : ConditionKind) : readValue? kind "" = none := by
  cases kind with
  | extension _ => rfl
  | _ => decide

theorem ofParts?_some {value : String} (h : ∀ extension, kind ≠ .extension extension) :
    ofParts? kind (some value) = readValue? kind value := by
  have hvalue : ofParts? kind (some value) = if value = "" then none else readValue? kind value := by
    cases kind with
    | extension extension => exact absurd rfl (h extension)
    | _ => rfl
  rw [hvalue]
  split
  · rename_i hblank
    rw [hblank, readValue?_empty]
  · rfl

theorem spellsAll_iff_mapM {value : String} {colors : List NodeColor} :
    (∃ pieces, Text.HasFields ',' value pieces ∧ Vocabulary.SpellsAll pieces colors) ↔
      ∃ found, (Text.split ',' value).mapM Vocabulary.read? = some found ∧
        Vocabulary.inOrder found = colors := by
  have hread : ((Text.split ',' value).map Text.trim).map Vocabulary.read? =
      (Text.split ',' value).map (Vocabulary.read? : String → Option NodeColor) := by
    simp only [List.map_map, Function.comp_def, Vocabulary.read?_trim]
  simp only [Text.hasFields_iff, exists_eq_left', Vocabulary.spellsAll_iff, hread, mapM_eq_some_iff]

theorem readValue?_eq_some_iff {value : String} (h : ∀ extension, kind ≠ .extension extension) :
    readValue? kind value = some condition ↔ Fits kind (some value) condition := by
  constructor
  · intro hread
    cases kind with
    | always =>
      simp only [readValue?, reduceCtorEq] at hread
    | runnerType =>
      simp only [readValue?, Option.map_eq_some_iff, Vocabulary.read?_eq_some_iff_spells] at hread
      obtain ⟨type, htype, rfl⟩ := hread
      exact .runnerType htype
    | runnerStat =>
      simp only [readValue?, readRunnerStat?_eq_some_iff] at hread
      obtain ⟨stat, comparison, number, hvalue, rfl⟩ := hread
      exact .runnerStat hvalue
    | nodeColor =>
      simp only [readValue?, Option.map_eq_some_iff, Vocabulary.read?_eq_some_iff_spells] at hread
      obtain ⟨color, hcolor, rfl⟩ := hread
      exact .nodeColor hcolor
    | nodeColorCombo =>
      simp only [readValue?, Option.map_eq_some_iff] at hread
      obtain ⟨found, hfound, rfl⟩ := hread
      obtain ⟨pieces, hpieces, hcolors⟩ := spellsAll_iff_mapM.2 ⟨found, hfound, rfl⟩
      exact .nodeColorCombo hpieces hcolors
    | extension extension => exact absurd rfl (h extension)
  · intro hfits
    cases hfits with
    | runnerType htype =>
      simp only [readValue?, Option.map_eq_some_iff, Vocabulary.read?_eq_some_iff_spells]
      exact ⟨_, htype, rfl⟩
    | runnerStat hvalue =>
      simp only [readValue?, readRunnerStat?_eq_some_iff]
      exact ⟨_, _, _, hvalue, rfl⟩
    | nodeColor hcolor =>
      simp only [readValue?, Option.map_eq_some_iff, Vocabulary.read?_eq_some_iff_spells]
      exact ⟨_, hcolor, rfl⟩
    | nodeColorCombo hpieces hcolors =>
      obtain ⟨found, hfound, rfl⟩ := spellsAll_iff_mapM.1 ⟨_, hpieces, hcolors⟩
      simp only [readValue?, Option.map_eq_some_iff]
      exact ⟨found, hfound, rfl⟩
    | @extension extension _ _ _ => exact absurd rfl (h extension)

theorem ofParts?_extension_iff {extension : ExtensionKind} :
    ofParts? (.extension extension) value = some condition ↔
      Fits (.extension extension) value condition := by
  have hfilter (text : String) : (value.filter fun argument => argument ≠ "") = some text ↔
      value = some text ∧ text ≠ "" := by
    rw [Option.filter_eq_some_iff, decide_eq_true_eq]
  constructor
  · intro h
    cases h
    exact .extension hfilter
  · intro h
    cases h with
    | @extension _ _ argument h =>
      have hargument : (value.filter fun argument => argument ≠ "") = argument :=
        Option.ext fun text => (hfilter text).trans (h text).symm
      rw [ofParts?, hargument]

/-- A word's kind and the value make up a condition if the value fits the kind. -/
theorem ofParts?_eq_some_iff : ofParts? kind value = some condition ↔ Fits kind value condition := by
  by_cases hextension : ∃ extension, kind = .extension extension
  · obtain ⟨extension, rfl⟩ := hextension
    exact ofParts?_extension_iff
  · have hkind : ∀ extension, kind ≠ .extension extension :=
      fun extension heq => hextension ⟨extension, heq⟩
    cases value with
    | some value => rw [ofParts?_some hkind, readValue?_eq_some_iff hkind]
    | none =>
      constructor
      · intro h
        cases kind with
        | always =>
          cases h
          exact .always
        | extension extension => exact absurd rfl (hkind extension)
        | _ => cases h
      · intro h
        cases h with
        | always => rfl
        | @extension extension _ _ _ => exact absurd rfl (hkind extension)

/-! ## The main statement -/

/-- The text denotes the condition. -/
def Denotes (raw : String) (condition : Condition) : Prop :=
  ∃ word value kind, HasParts raw word value ∧ Vocabulary.Spells word kind ∧
    Fits kind value condition

/-- The text names a kind that is none. -/
def HasUnknownKind (raw word : String) : Prop :=
  (∃ value, HasParts raw word value) ∧ word ≠ "" ∧
    ∀ kind : ConditionKind, ¬Vocabulary.Spells word kind

theorem read_eq_ok_iff_denotes : read raw = .ok condition ↔ Denotes raw condition := by
  have hempty : ∀ kind : ConditionKind, ¬Vocabulary.Spells "" kind :=
    Vocabulary.read?_eq_none_iff.1 (by decide)
  rw [read_eq_ok_iff]
  simp only [← hasParts_iff, Vocabulary.read?_eq_some_iff_spells, ofParts?_eq_some_iff]
  constructor
  · rintro ⟨word, value, kind, hparts, -, hkind, hfits⟩
    exact ⟨word, value, kind, hparts, hkind, hfits⟩
  · rintro ⟨word, value, kind, hparts, hkind, hfits⟩
    refine ⟨word, value, kind, hparts, ?_, hkind, hfits⟩
    rintro rfl
    exact hempty kind hkind

theorem read_eq_unknownKind_iff :
    read raw = .error (.unknownKind word) ↔ HasUnknownKind raw word := by
  simp only [HasUnknownKind, hasParts_iff, ← Vocabulary.read?_eq_none_iff]
  unfold read
  cases hparts : parts (Text.trim raw) with
  | mk found value =>
    simp only [hparts, Prod.mk.injEq]
    constructor
    · intro h
      split at h
      · cases h
      · rename_i hword
        split at h
        · rename_i hnone
          cases h
          exact ⟨⟨value, rfl, rfl⟩, hword, hnone⟩
        · split at h <;> cases h
    · rintro ⟨⟨_, rfl, -⟩, hword, hnone⟩
      rw [if_neg hword, hnone]

/-- A malformed text is blamed as a whole. -/
theorem eq_trim_of_read_eq_malformed {text : String} (h : read raw = .error (.malformed text)) :
    text = Text.trim raw := by
  unfold read at h
  simp only at h
  split at h
  · cases h
    rfl
  · split at h
    · cases h
    · split at h
      · cases h
        rfl
      · cases h

/-- The part of the text that is blamed stands in it. -/
theorem isExcerpt_of_read_eq_error {error : ConditionError} (h : read raw = .error error) :
    Text.IsExcerpt error.fragment raw := by
  cases error with
  | malformed text =>
    rw [ConditionError.fragment, eq_trim_of_read_eq_malformed h]
    exact Text.isExcerpt_trim raw
  | unknownKind word =>
    obtain ⟨⟨value, hparts⟩, -, -⟩ := read_eq_unknownKind_iff.1 h
    exact hparts.isExcerpt

/-- **Every text is a condition, of unknown kind, or malformed**, and never two of these. A condition has the
word of its kind and the value that its kind asks for; a kind is unknown if there is a word that spells none; all
other texts are malformed, and blamed as a whole but for the blanks at the ends. -/
theorem read_classifies :
    (∀ raw condition, read raw = .ok condition ↔ Denotes raw condition) ∧
    (∀ raw word, read raw = .error (.unknownKind word) ↔ HasUnknownKind raw word) ∧
    ∀ raw text, read raw = .error (.malformed text) ↔ text = Text.trim raw ∧
      (∀ condition, ¬Denotes raw condition) ∧ ∀ word, ¬HasUnknownKind raw word := by
  refine ⟨fun raw condition => read_eq_ok_iff_denotes, fun raw word => read_eq_unknownKind_iff,
    fun raw text => ?_⟩
  simp only [← read_eq_ok_iff_denotes, ← read_eq_unknownKind_iff]
  constructor
  · intro h
    exact ⟨eq_trim_of_read_eq_malformed h, by simp [h], by simp [h]⟩
  · rintro ⟨rfl, hcondition, hkind⟩
    cases hread : read raw with
    | ok condition => exact absurd hread (hcondition condition)
    | error error =>
      cases error with
      | unknownKind word => exact absurd hread (hkind word)
      | malformed text => rw [eq_trim_of_read_eq_malformed hread]

/-- The words that are known. -/
example : (Vocabulary.all : List ConditionKind).map Vocabulary.name =
    ["None", "RunnerType", "RunnerStat", "NodeColor", "NodeColorCombo", "PrevDam", "PrevRisk",
      "RiskDamPair", "ColorForEach"] := rfl

/-- Neither is part of a run a sign, nor are two runs one. -/
example : read " RunnerStat: Face => 3" = .error (.malformed "RunnerStat: Face => 3") ∧
    read "RunnerStat:Face> =3" = .error (.malformed "RunnerStat:Face> =3") := by
  decide +kernel

end Condition

end PerkGraph
