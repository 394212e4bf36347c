import PerkGraph.Proofs.Spelling
import PerkGraph.RuleCheck

/-!
# Canonical texts of effects

A text that denotes an effect has a canonical one, which denotes the same effect and is its own canonical
text (`Effect.text_reads_back`). Conditions are handled first. A condition is canonical if its colors are in
canonical order, at least one of them, and the argument of an extension begins and ends with a character
that is not blank: these are the conditions that texts denote, and each is read back from its own text
(`Condition.exists_read_iff`). An effect must fit between semicolons as well, so no argument may hold one
(`Effect.exists_read_iff`).
-/

namespace PerkGraph

/-! ## Signs -/

theorem Comparison.ofSign?_sign (comparison : Comparison) :
    ofSign? comparison.sign = some comparison := by
  cases comparison <;> decide

theorem Comparison.isSignChar_of_mem_sign {comparison : Comparison} {c : Char}
    (h : c ∈ comparison.sign.toList) : isSignChar c = true := by
  have hall : comparison.sign.toList.all isSignChar = true := by
    cases comparison <;> decide
  exact List.all_eq_true.1 hall c h

theorem Operator.ofSign?_sign (operator : Operator) : ofSign? operator.sign = some operator := by
  cases operator <;> decide

theorem Operator.isSolid_sign (operator : Operator) : Text.IsSolid operator.sign := by
  cases operator <;> exact ⟨by decide, by decide⟩

namespace Condition

/-! ## Kinds and values -/

/-- The word in front of the colon of a condition's text. -/
def kind : Condition → ConditionKind
  | always => .always
  | runnerType _ => .runnerType
  | runnerStat _ _ _ => .runnerStat
  | nodeColor _ => .nodeColor
  | nodeColorCombo _ => .nodeColorCombo
  | extension kind _ => .extension kind

/-- What a condition's text has behind the colon, if it has one. -/
def value? : Condition → Option String
  | always => none
  | runnerType type => some (Vocabulary.name type)
  | runnerStat stat comparison value =>
    some (Vocabulary.name stat ++ comparison.sign ++ value.numeral)
  | nodeColor color => some (Vocabulary.name color)
  | nodeColorCombo colors => some (Text.join "," (colors.map Vocabulary.name))
  | extension _ argument => argument

/-- A condition that some text denotes. -/
def IsCanonical : Condition → Prop
  | nodeColorCombo colors => colors ≠ [] ∧ Vocabulary.inOrder colors = colors
  | extension _ argument => ∀ text ∈ argument, Text.IsSolid text
  | _ => True

variable {condition : Condition}

theorem text_of_value?_eq_none (h : condition.value? = none) :
    condition.text = Vocabulary.name condition.kind := by
  cases condition with
  | always => rfl
  | extension kind argument =>
    obtain rfl : argument = none := h
    rfl
  | _ => cases h

theorem text_of_value?_eq_some {value : String} (h : condition.value? = some value) :
    condition.text = Vocabulary.name condition.kind ++ String.singleton ':' ++ value := by
  cases condition with
  | always => cases h
  | runnerType type => cases h; rfl
  | runnerStat stat comparison number =>
    cases h
    rw [← String.append_assoc, ← String.append_assoc]
    rfl
  | nodeColor color => cases h; rfl
  | nodeColorCombo colors => cases h; rfl
  | extension kind argument =>
    obtain rfl : argument = some value := h
    rfl

/-! ## Reading -/

theorem parts_eq_none_iff {trimmed kind : String} :
    parts trimmed = (kind, none) ↔ trimmed = kind ∧ ':' ∉ trimmed.toList := by
  rw [← Text.cut_eq_none_iff]
  unfold parts
  cases Text.cut ':' trimmed <;> simp

theorem parts_eq_some_iff {trimmed kind value : String} :
    parts trimmed = (kind, some value) ↔ ∃ before after,
      trimmed = before ++ String.singleton ':' ++ after ∧ ':' ∉ before.toList ∧
        kind = Text.trim before ∧ value = Text.trim after := by
  simp only [← and_assoc, ← Text.cut_eq_some_iff]
  unfold parts
  cases hcut : Text.cut ':' trimmed with
  | none => simp
  | some halves =>
    obtain ⟨before, after⟩ := halves
    simp only [Prod.mk.injEq, Option.some.injEq]
    constructor
    · rintro ⟨rfl, rfl⟩
      exact ⟨before, after, ⟨⟨⟨rfl, rfl⟩, rfl⟩, rfl⟩⟩
    · rintro ⟨_, _, ⟨⟨⟨rfl, rfl⟩, rfl⟩, rfl⟩⟩
      exact ⟨rfl, rfl⟩

/-- A text denotes a condition if its kind is known and its value fits the kind. -/
theorem read_eq_ok_iff {raw : String} :
    read raw = .ok condition ↔ ∃ word value known, parts (Text.trim raw) = (word, value) ∧
      word ≠ "" ∧ Vocabulary.read? word = some known ∧ ofParts? known value = some condition := by
  unfold read
  cases hparts : parts (Text.trim raw) with
  | mk word value =>
    simp only [hparts]
    by_cases hword : word = ""
    · simp [hword]
    · rw [if_neg hword]
      cases hread : (Vocabulary.read? word : Option ConditionKind) with
      | none => simp [hread]
      | some known =>
        cases hof : ofParts? known value with
        | none => simp [hread, hof]
        | some found =>
          simp only [hof]
          constructor
          · intro hok
            cases hok
            exact ⟨word, value, known, rfl, hword, hread, hof⟩
          · rintro ⟨_, _, other, heq, -, hother, hfound⟩
            cases heq
            cases hread.symm.trans hother
            cases hof.symm.trans hfound
            rfl

theorem readRunnerStat?_value (stat : RunnerStat) (comparison : Comparison) (value : Points) :
    readRunnerStat? (Vocabulary.name stat ++ comparison.sign ++ value.numeral) =
      some (runnerStat stat comparison value) := by
  have hname : ∀ c ∈ (Vocabulary.name stat).toList, (!Comparison.isSignChar c) = true := by
    intro c hc
    have hid := (isNodeId_iff.1 (Vocabulary.IsLegible.isNodeId_name stat)).2 c hc
    simp [isSignChar_of_isIdChar hid]
  have hsign : ∀ c ∈ comparison.sign.toList, Comparison.isSignChar c = true :=
    fun c hc => Comparison.isSignChar_of_mem_sign hc
  have hnumeral : ∀ c ∈ value.numeral.toList, Comparison.isSignChar c = false :=
    fun c hc => isSignChar_of_isIdChar ((isNodeId_iff.1 (isNodeId_numeral value)).2 c hc)
  -- the sign is a whole run of sign characters: a name in front of it, a numeral behind
  have hstop : (comparison.sign.toList ++ value.numeral.toList).takeWhile
      (fun c => !Comparison.isSignChar c) = [] ∧
      (comparison.sign.toList ++ value.numeral.toList).dropWhile
        (fun c => !Comparison.isSignChar c) = comparison.sign.toList ++ value.numeral.toList := by
    cases comparison <;> exact ⟨rfl, rfl⟩
  have hrest : value.numeral.toList.takeWhile Comparison.isSignChar = [] ∧
      value.numeral.toList.dropWhile Comparison.isSignChar = value.numeral.toList := by
    cases hcs : value.numeral.toList with
    | nil => exact ⟨rfl, rfl⟩
    | cons c rest =>
      have hc : Comparison.isSignChar c = false := hnumeral c (hcs ▸ List.mem_cons_self)
      simp [hc]
  have hsolid := isSolid_of_isNodeId (isNodeId_numeral value)
  unfold readRunnerStat?
  simp only [String.toList_append, List.append_assoc, List.takeWhile_append_of_pos hname,
    List.dropWhile_append_of_pos hname, hstop, List.append_nil,
    List.takeWhile_append_of_pos hsign, List.dropWhile_append_of_pos hsign, hrest,
    String.ofList_toList, Vocabulary.IsLegible.read?_name, Comparison.ofSign?_sign,
    hsolid.trimmed, Points.read?_numeral]
  rfl

theorem isSolid_value? (h : condition.IsCanonical) {value : String}
    (hvalue : condition.value? = some value) : Text.IsSolid value := by
  cases condition with
  | always => cases hvalue
  | runnerType type =>
    cases hvalue
    exact isSolid_of_isNodeId (Vocabulary.IsLegible.isNodeId_name type)
  | runnerStat stat comparison number =>
    cases hvalue
    exact (isSolid_of_isNodeId (Vocabulary.IsLegible.isNodeId_name stat)).append comparison.sign
      (isSolid_of_isNodeId (isNodeId_numeral number))
  | nodeColor color =>
    cases hvalue
    exact isSolid_of_isNodeId (Vocabulary.IsLegible.isNodeId_name color)
  | nodeColorCombo colors =>
    cases hvalue
    refine Text.isSolid_join (fun hnil => h.1 (List.map_eq_nil_iff.1 hnil)) fun x hx => ?_
    obtain ⟨color, -, rfl⟩ := List.mem_map.1 hx
    exact isSolid_of_isNodeId (Vocabulary.IsLegible.isNodeId_name color)
  | extension kind argument => exact h value hvalue

/-- A canonical condition is made of its kind and its value. -/
theorem ofParts?_value? (h : condition.IsCanonical) :
    ofParts? condition.kind condition.value? = some condition := by
  cases condition with
  | always => rfl
  | runnerType type =>
    have hvalue : Vocabulary.name type ≠ "" := (isSolid_value? h rfl).nonempty
    simp [kind, value?, ofParts?, readValue?, hvalue, Vocabulary.IsLegible.read?_name]
  | runnerStat stat comparison number =>
    have hvalue : Vocabulary.name stat ++ comparison.sign ++ number.numeral ≠ "" :=
      (isSolid_value? h rfl).nonempty
    simp only [kind, value?, ofParts?, hvalue, if_false, readValue?]
    exact readRunnerStat?_value stat comparison number
  | nodeColor color =>
    have hvalue : Vocabulary.name color ≠ "" := (isSolid_value? h rfl).nonempty
    simp [kind, value?, ofParts?, readValue?, hvalue, Vocabulary.IsLegible.read?_name]
  | nodeColorCombo colors =>
    have hvalue : Text.join "," (colors.map Vocabulary.name) ≠ "" :=
      (isSolid_value? h rfl).nonempty
    obtain ⟨hcolors, horder⟩ := h
    have hsplit : Text.split ',' (Text.join "," (colors.map Vocabulary.name)) =
        colors.map Vocabulary.name := by
      refine Text.split_join (fun hnil => hcolors (List.map_eq_nil_iff.1 hnil)) fun x hx => ?_
      obtain ⟨color, -, rfl⟩ := List.mem_map.1 hx
      exact not_mem_of_isNodeId (Vocabulary.IsLegible.isNodeId_name color) (by decide)
    simp only [kind, value?, ofParts?, hvalue, if_false, readValue?, hsplit,
      mapM_read?_map_name, Option.map_some, horder]
  | extension kind argument =>
    cases argument with
    | none => rfl
    | some argument =>
      have hvalue : argument ≠ "" := (isSolid_value? h rfl).nonempty
      simp [Condition.kind, value?, ofParts?, hvalue]

theorem isSolid_text (h : condition.IsCanonical) : Text.IsSolid condition.text := by
  have hname := isSolid_of_isNodeId (Vocabulary.IsLegible.isNodeId_name condition.kind)
  cases hvalue : condition.value? with
  | none => exact text_of_value?_eq_none hvalue ▸ hname
  | some value =>
    exact text_of_value?_eq_some hvalue ▸ hname.append _ (isSolid_value? h hvalue)

theorem parts_text (h : condition.IsCanonical) :
    parts condition.text = (Vocabulary.name condition.kind, condition.value?) := by
  have hname := Vocabulary.IsLegible.isNodeId_name condition.kind
  have hcolon : ':' ∉ (Vocabulary.name condition.kind).toList :=
    not_mem_of_isNodeId hname (by decide)
  cases hvalue : condition.value? with
  | none =>
    rw [text_of_value?_eq_none hvalue]
    exact parts_eq_none_iff.2 ⟨rfl, hcolon⟩
  | some value =>
    rw [text_of_value?_eq_some hvalue, parts_eq_some_iff]
    exact ⟨_, _, rfl, hcolon, (isSolid_of_isNodeId hname).trimmed.symm,
      (isSolid_value? h hvalue).trimmed.symm⟩

/-- A canonical condition is read back from its text. -/
theorem read_text (h : condition.IsCanonical) : read condition.text = .ok condition := by
  rw [read_eq_ok_iff, (isSolid_text h).trimmed, parts_text h]
  exact ⟨_, _, _, rfl, Vocabulary.name_ne_empty _, Vocabulary.IsLegible.read?_name _,
    ofParts?_value? h⟩

/-! ## What texts denote -/

theorem trim_of_parts {trimmed word value : String} (h : parts trimmed = (word, some value)) :
    Text.trim value = value := by
  obtain ⟨_, after, -, -, -, rfl⟩ := parts_eq_some_iff.1 h
  exact Text.trim_trim after

theorem isCanonical_of_ofParts? {known : ConditionKind} {value : Option String}
    (htrim : ∀ text ∈ value, Text.trim text = text) (h : ofParts? known value = some condition) :
    condition.IsCanonical := by
  cases known with
  | extension kind =>
    simp only [ofParts?, Option.some.injEq] at h
    subst h
    intro text htext
    obtain ⟨hvalue, hne⟩ := Option.filter_eq_some_iff.1 htext
    exact ⟨of_decide_eq_true hne, htrim text hvalue⟩
  | always =>
    cases value with
    | none => cases h; trivial
    | some value => simp [ofParts?, readValue?] at h
  | nodeColorCombo =>
    cases value with
    | none => cases h
    | some value =>
      simp only [ofParts?, Option.ite_none_left_eq_some, readValue?, Option.map_eq_some_iff] at h
      obtain ⟨-, words, hwords, rfl⟩ := h
      have hne : words ≠ [] := by
        rintro rfl
        rw [mapM_eq_some_iff, List.map_nil, List.map_eq_nil_iff] at hwords
        exact Text.split_ne_nil _ _ hwords
      exact ⟨Vocabulary.inOrder_ne_nil hne, Vocabulary.inOrder_inOrder words⟩
  | runnerType =>
    cases value with
    | none => cases h
    | some value =>
      simp only [ofParts?, Option.ite_none_left_eq_some, readValue?, Option.map_eq_some_iff] at h
      obtain ⟨-, _, -, rfl⟩ := h
      trivial
  | nodeColor =>
    cases value with
    | none => cases h
    | some value =>
      simp only [ofParts?, Option.ite_none_left_eq_some, readValue?, Option.map_eq_some_iff] at h
      obtain ⟨-, _, -, rfl⟩ := h
      trivial
  | runnerStat =>
    cases value with
    | none => cases h
    | some value =>
      simp only [ofParts?, Option.ite_none_left_eq_some, readValue?, readRunnerStat?,
        Option.bind_eq_bind, Option.bind_eq_some_iff, Option.pure_def, Option.some.injEq] at h
      obtain ⟨-, _, -, _, -, _, -, rfl⟩ := h
      trivial

theorem isCanonical_of_read {raw : String} (h : read raw = .ok condition) :
    condition.IsCanonical := by
  obtain ⟨word, value, known, hparts, -, -, hof⟩ := read_eq_ok_iff.1 h
  refine isCanonical_of_ofParts? (fun text htext => ?_) hof
  obtain rfl : value = some text := htext
  exact trim_of_parts hparts

theorem exists_read_iff : (∃ raw, read raw = .ok condition) ↔ condition.IsCanonical :=
  ⟨fun ⟨_, h⟩ => isCanonical_of_read h, fun h => ⟨_, read_text h⟩⟩

/-! ## Semicolons -/

theorem eq_some_of_ofParts?_extension {known : ConditionKind} {value : Option String}
    {kind : ExtensionKind} {argument : String}
    (h : ofParts? known value = some (extension kind (some argument))) : value = some argument := by
  cases known with
  | extension other =>
    simp only [ofParts?, Option.some.injEq, extension.injEq] at h
    exact (Option.filter_eq_some_iff.1 h.2).1
  | runnerStat =>
    cases value with
    | none => cases h
    | some value =>
      simp [ofParts?, readValue?, readRunnerStat?, Option.bind_eq_some_iff] at h
  | _ => cases value <;> simp [ofParts?, readValue?] at h

/-- An argument is cut out of the text that was read. -/
theorem mem_of_mem_argument {raw argument : String} {kind : ExtensionKind} {c : Char}
    (h : read raw = .ok (extension kind (some argument))) (hc : c ∈ argument.toList) :
    c ∈ raw.toList := by
  obtain ⟨word, value, known, hparts, -, -, hof⟩ := read_eq_ok_iff.1 h
  obtain rfl := eq_some_of_ofParts?_extension hof
  obtain ⟨before, after, htrimmed, -, -, rfl⟩ := parts_eq_some_iff.1 hparts
  apply Text.mem_of_mem_trim
  rw [htrimmed, String.toList_append]
  exact List.mem_append_right _ (Text.mem_of_mem_trim hc)

theorem not_mem_value?_of_read {raw value : String} (h : read raw = .ok condition)
    (hraw : ';' ∉ raw.toList) (hvalue : condition.value? = some value) : ';' ∉ value.toList := by
  have hword {s : String} (hs : isNodeId s = true) : ';' ∉ s.toList :=
    not_mem_of_isNodeId hs (by decide)
  cases condition with
  | always => cases hvalue
  | runnerType type =>
    cases hvalue
    exact hword (Vocabulary.IsLegible.isNodeId_name type)
  | runnerStat stat comparison number =>
    cases hvalue
    have hsign : ';' ∉ comparison.sign.toList :=
      fun hmem => absurd (Comparison.isSignChar_of_mem_sign hmem) (by decide)
    simp only [String.toList_append, List.mem_append, not_or]
    exact ⟨⟨hword (Vocabulary.IsLegible.isNodeId_name stat), hsign⟩,
      hword (isNodeId_numeral number)⟩
  | nodeColor color =>
    cases hvalue
    exact hword (Vocabulary.IsLegible.isNodeId_name color)
  | nodeColorCombo colors =>
    cases hvalue
    intro hmem
    rcases Text.mem_toList_join hmem with hsep | ⟨x, hx, hmem⟩
    · exact absurd hsep (by decide)
    · obtain ⟨color, -, rfl⟩ := List.mem_map.1 hx
      exact hword (Vocabulary.IsLegible.isNodeId_name color) hmem
  | extension kind argument =>
    obtain rfl : argument = some value := hvalue
    exact fun hmem => hraw (mem_of_mem_argument h hmem)

theorem not_mem_text_of_read {raw : String} (h : read raw = .ok condition)
    (hraw : ';' ∉ raw.toList) : ';' ∉ condition.text.toList := by
  have hname : ';' ∉ (Vocabulary.name condition.kind).toList :=
    not_mem_of_isNodeId (Vocabulary.IsLegible.isNodeId_name condition.kind) (by decide)
  cases hvalue : condition.value? with
  | none => rwa [text_of_value?_eq_none hvalue]
  | some value =>
    rw [text_of_value?_eq_some hvalue]
    simp only [String.toList_append, String.toList_singleton, List.mem_append, not_or]
    exact ⟨⟨hname, by decide⟩, not_mem_value?_of_read h hraw hvalue⟩

end Condition

namespace Effect

/-! ## Effects -/

/-- An effect that some text denotes: its condition fits between semicolons. -/
structure IsCanonical (effect : Effect) : Prop where
  condition : effect.condition.IsCanonical
  oneField : ';' ∉ effect.condition.text.toList

variable {effect : Effect}

theorem ofFields_eq_ok_iff {condition operator amount stat : String} :
    ofFields condition operator amount stat = .ok effect ↔
      Condition.read condition = .ok effect.condition ∧
        Operator.ofSign? operator = some effect.operator ∧
        Points.read? amount = some effect.amount ∧ Vocabulary.read? stat = some effect.stat := by
  obtain ⟨_, _, _, _⟩ := effect
  unfold ofFields
  cases Operator.ofSign? operator <;> cases Points.read? amount <;>
    cases (Vocabulary.read? stat : Option Stat) <;> cases Condition.read condition <;>
    simp [and_comm]

/-- A text denotes an effect if its four fields denote its four parts. -/
theorem read_eq_ok_iff {raw : String} :
    read raw = .ok effect ↔ ∃ condition operator amount stat,
      (Text.split ';' (Text.trim raw)).map Text.trim = [condition, operator, amount, stat] ∧
        Condition.read condition = .ok effect.condition ∧
        Operator.ofSign? operator = some effect.operator ∧
        Points.read? amount = some effect.amount ∧ Vocabulary.read? stat = some effect.stat := by
  simp only [← ofFields_eq_ok_iff]
  unfold read
  constructor
  · intro h
    simp only at h
    split at h
    · rename_i hfields
      exact ⟨_, _, _, _, hfields, h⟩
    · cases h
  · rintro ⟨condition, operator, amount, stat, hfields, h⟩
    simp only [hfields]
    exact h

theorem isCanonical_of_read {raw : String} (h : read raw = .ok effect) : effect.IsCanonical := by
  obtain ⟨condition, _, _, _, hfields, hread, -⟩ := read_eq_ok_iff.1 h
  have hmem : condition ∈ (Text.split ';' (Text.trim raw)).map Text.trim :=
    hfields ▸ List.mem_cons_self
  obtain ⟨field, hfield, rfl⟩ := List.mem_map.1 hmem
  have hsemicolon : ';' ∉ (Text.trim field).toList :=
    fun hc => Text.not_mem_of_mem_split hfield (Text.mem_of_mem_trim hc)
  exact ⟨Condition.isCanonical_of_read hread, Condition.not_mem_text_of_read hread hsemicolon⟩

/-- A canonical effect is read back from its text. -/
theorem read_text (h : effect.IsCanonical) : read effect.text = .ok effect := by
  have hnumeral := isNodeId_numeral effect.amount
  have hstat := Vocabulary.IsLegible.isNodeId_name effect.stat
  let fields : List String :=
    [effect.condition.text, effect.operator.sign, effect.amount.numeral, Vocabulary.name effect.stat]
  have hsolid : ∀ x ∈ fields, Text.IsSolid x := by
    simp only [fields, List.forall_mem_cons]
    exact ⟨Condition.isSolid_text h.condition, Operator.isSolid_sign effect.operator,
      isSolid_of_isNodeId hnumeral, isSolid_of_isNodeId hstat, nofun⟩
  have hsemicolon : ∀ x ∈ fields, ';' ∉ x.toList := by
    have hsign : ';' ∉ effect.operator.sign.toList := by
      cases effect.operator <;> decide
    simp only [fields, List.forall_mem_cons]
    exact ⟨h.oneField, hsign, not_mem_of_isNodeId hnumeral (by decide),
      not_mem_of_isNodeId hstat (by decide), nofun⟩
  have htext : Text.trim effect.text = Text.join (String.singleton ';') fields :=
    (Text.isSolid_join (List.cons_ne_nil _ _) hsolid).trimmed
  rw [read_eq_ok_iff, htext, Text.split_join (List.cons_ne_nil _ _) hsemicolon,
    Text.map_trim_eq_self hsolid]
  exact ⟨_, _, _, _, rfl, Condition.read_text h.condition, Operator.ofSign?_sign effect.operator,
    Points.read?_numeral effect.amount, Vocabulary.IsLegible.read?_name effect.stat⟩

theorem exists_read_iff : (∃ raw, read raw = .ok effect) ↔ effect.IsCanonical :=
  ⟨fun ⟨_, h⟩ => isCanonical_of_read h, fun h => ⟨_, read_text h⟩⟩

/-! ## The main statement -/

/-- **Canonical texts of effects read back.** What a text denotes, its canonical text denotes too, and that
text is canonical for itself; two texts denote one effect if and only if they have one canonical text. The
same goes for conditions. It covers every condition with canonical colors and arguments, and every effect
of which the condition fits between semicolons: texts denote these and no others. -/
theorem text_reads_back :
    (∀ raw effect, read raw = .ok effect → read effect.text = .ok effect ∧
      RuleCheck.ofEffect effect.text = .valid effect effect.text) ∧
    (∀ raw other effect twin, read raw = .ok effect → read other = .ok twin →
      (effect = twin ↔ effect.text = twin.text)) ∧
    (∀ effect, (∃ raw, read raw = .ok effect) ↔ effect.IsCanonical) ∧
    (∀ raw condition, Condition.read raw = .ok condition →
      Condition.read condition.text = .ok condition) ∧
    ∀ condition, (∃ raw, Condition.read raw = .ok condition) ↔ condition.IsCanonical := by
  have hback {raw : String} {effect : Effect} (h : read raw = .ok effect) :
      read effect.text = .ok effect := read_text (isCanonical_of_read h)
  refine ⟨fun raw effect h => ⟨hback h, ?_⟩, fun raw other effect twin h htwin => ⟨?_, fun heq => ?_⟩,
    fun effect => exists_read_iff, fun raw condition h => ?_,
    fun condition => Condition.exists_read_iff⟩
  · rw [RuleCheck.ofEffect, hback h]
  · rintro rfl
    rfl
  · have hread := hback h
    rw [heq, hback htwin] at hread
    cases hread
    rfl
  · exact Condition.read_text (Condition.isCanonical_of_read h)

/-- An argument keeps its inner blanks and colons. -/
example :
    (RuleCheck.ofEffect " prevdam : a :  b ;+;07;money").line = "PrevDam:a :  b;+;7;Money" := by
  decide +kernel

end Effect

end PerkGraph
