import PerkGraph.Proofs.ConditionGrammar

/-!
# The grammar of effects

An effect text has four fields between semicolons: a condition, an operator's sign, an amount and the name of a
pool (`Effect.Denotes`). The fields are looked at in an order of their own, the condition last, and each has its
fault if it is not what it should be (`Effect.FieldFault`), whatever the others are.

Main statement: a text is an effect, or the reader blames the first fault of it, and what it blames stands in the
text (`Effect.read_blames_first_fault`).
-/

namespace PerkGraph

theorem Operator.ofSign?_eq_some_iff {s : String} {operator : Operator} :
    ofSign? s = some operator ↔ s = operator.sign := by
  constructor
  · intro h
    have hsign := List.find?_some h
    exact (beq_iff_eq.1 hsign).symm
  · rintro rfl
    exact ofSign?_sign operator

theorem Operator.ofSign?_eq_none_iff {s : String} :
    ofSign? s = none ↔ ∀ operator : Operator, s ≠ operator.sign := by
  simp only [Option.eq_none_iff_forall_ne_some, ne_eq, ofSign?_eq_some_iff]

namespace Effect

variable {raw condition operator amount stat : String} {effect : Effect} {error : EffectError}
  {place : Nat}

/-! ## Effects -/

/-- The text denotes the effect. -/
def Denotes (raw : String) (effect : Effect) : Prop :=
  ∃ condition operator amount stat, Text.HasFields ';' raw [condition, operator, amount, stat] ∧
    Condition.read condition = .ok effect.condition ∧ operator = effect.operator.sign ∧
      Text.IsNumeral amount effect.amount.val ∧ Vocabulary.Spells stat effect.stat

theorem read_eq_ok_iff_denotes : read raw = .ok effect ↔ Denotes raw effect := by
  have hsemicolon : Text.isBlank ';' = false := by decide
  rw [read_eq_ok_iff]
  simp only [← Text.hasFields_iff_trim hsemicolon, Operator.ofSign?_eq_some_iff,
    Points.read?_eq_some_iff, Vocabulary.read?_eq_some_iff_spells, Denotes]

/-! ## Faults -/

/-- What can be wrong with four fields, in the order in which they are looked at. -/
inductive FieldFault (condition operator amount stat : String) : Nat → EffectError → Prop
  | operator (h : ∀ known : Operator, operator ≠ known.sign) :
      FieldFault condition operator amount stat 0 (.operator operator)
  | amount (h : ∀ points : Points, ¬Text.IsNumeral amount points.val) :
      FieldFault condition operator amount stat 1 (.amount amount)
  | stat (h : ∀ known : Stat, ¬Vocabulary.Spells stat known) :
      FieldFault condition operator amount stat 2 (.stat stat)
  | condition {error : ConditionError} (h : Condition.read condition = .error error) :
      FieldFault condition operator amount stat 3 (.condition error)

/-- What can be wrong with a text. The number of its fields is looked at before any of them. -/
inductive HasFault (raw : String) : Nat → EffectError → Prop
  | fieldCount {fields : List String} (hfields : Text.HasFields ';' raw fields)
      (hcount : fields.length ≠ 4) : HasFault raw 0 (.fieldCount raw fields.length)
  | field {condition operator amount stat : String} {place : Nat} {error : EffectError}
      (hfields : Text.HasFields ';' raw [condition, operator, amount, stat])
      (h : FieldFault condition operator amount stat place error) : HasFault raw (place + 1) error

theorem fieldFault_iff : FieldFault condition operator amount stat place error ↔
    place = 0 ∧ Operator.ofSign? operator = none ∧ error = .operator operator ∨
    place = 1 ∧ Points.read? amount = none ∧ error = .amount amount ∨
    place = 2 ∧ (Vocabulary.read? stat : Option Stat) = none ∧ error = .stat stat ∨
    place = 3 ∧ ∃ found, Condition.read condition = .error found ∧ error = .condition found := by
  rw [Operator.ofSign?_eq_none_iff, Points.read?_eq_none_iff, Vocabulary.read?_eq_none_iff]
  constructor
  · intro h
    cases h with
    | operator h => exact .inl ⟨rfl, h, rfl⟩
    | amount h => exact .inr (.inl ⟨rfl, h, rfl⟩)
    | stat h => exact .inr (.inr (.inl ⟨rfl, h, rfl⟩))
    | condition h => exact .inr (.inr (.inr ⟨rfl, _, h, rfl⟩))
  · rintro (⟨rfl, h, rfl⟩ | ⟨rfl, h, rfl⟩ | ⟨rfl, h, rfl⟩ | ⟨rfl, _, h, rfl⟩)
    · exact .operator h
    · exact .amount h
    · exact .stat h
    · exact .condition h

/-- Four fields are refused for the first fault in them. -/
theorem ofFields_eq_error_iff : ofFields condition operator amount stat = .error error ↔
    IsFirstFault (FieldFault condition operator amount stat) error := by
  unfold ofFields
  cases hoperator : Operator.ofSign? operator with
  | none =>
    rw [isFirstFault_iff_of_found (.operator operator) (by simp [fieldFault_iff, hoperator])]
    simp [eq_comm]
  | some _ =>
    -- the operator is known, and so on: the fields that are left decide
    rw [isFirstFault_iff_of_passed (by simp [fieldFault_iff, hoperator])]
    cases hamount : Points.read? amount with
    | none =>
      rw [isFirstFault_iff_of_found (.amount amount) (by simp [fieldFault_iff, hamount])]
      simp [eq_comm]
    | some _ =>
      rw [isFirstFault_iff_of_passed (by simp [fieldFault_iff, hamount])]
      cases hstat : (Vocabulary.read? stat : Option Stat) with
      | none =>
        rw [isFirstFault_iff_of_found (.stat stat) (by simp [fieldFault_iff, hstat])]
        simp [eq_comm]
      | some _ =>
        rw [isFirstFault_iff_of_passed (by simp [fieldFault_iff, hstat])]
        cases hcondition : Condition.read condition with
        | error found =>
          rw [isFirstFault_iff_of_found (.condition found)
            (by simp [fieldFault_iff, hcondition])]
          simp [eq_comm]
        | ok _ => simp [IsFirstFault, fieldFault_iff, hcondition]

theorem read_of_fields (h : Text.HasFields ';' raw [condition, operator, amount, stat]) :
    read raw = ofFields condition operator amount stat := by
  rw [Text.hasFields_iff_trim (by decide)] at h
  rw [read, h]

theorem read_of_length {fields : List String} (h : Text.HasFields ';' raw fields)
    (hcount : fields.length ≠ 4) : read raw = .error (.fieldCount raw fields.length) := by
  rw [Text.hasFields_iff_trim (by decide)] at h
  rw [read, h]
  split
  · exact absurd rfl hcount
  · rfl

theorem exists_four_fields {fields : List String} (h : fields.length = 4) :
    ∃ condition operator amount stat, fields = [condition, operator, amount, stat] := by
  match fields, h with
  | [_, _, _, _], _ => exact ⟨_, _, _, _, rfl⟩

/-- A text is refused for the first fault of it. -/
theorem read_eq_error_iff : read raw = .error error ↔ IsFirstFault (HasFault raw) error := by
  have hfields := Text.hasFields_split ';' raw
  generalize (Text.split ';' raw).map Text.trim = fields at hfields
  by_cases hcount : fields.length = 4
  · obtain ⟨condition, operator, amount, stat, rfl⟩ := exists_four_fields hcount
    have hpassed : ∀ other, ¬HasFault raw 0 other := by
      intro other h
      cases h with
      | fieldCount hothers hne =>
        obtain rfl := hfields.unique hothers
        exact hne rfl
    have hfield (place : Nat) (other : EffectError) : HasFault raw (place + 1) other ↔
        FieldFault condition operator amount stat place other := by
      constructor
      · intro h
        cases h with
        | field hothers h =>
          cases hfields.unique hothers
          exact h
      · exact .field hfields
    rw [read_of_fields hfields, ofFields_eq_error_iff, isFirstFault_iff_of_passed hpassed,
      isFirstFault_congr hfield]
  · have hfound (other : EffectError) :
        HasFault raw 0 other ↔ other = .fieldCount raw fields.length := by
      constructor
      · intro h
        cases h with
        | fieldCount hothers _ => rw [hfields.unique hothers]
      · rintro rfl
        exact .fieldCount hfields hcount
    rw [read_of_length hfields hcount, isFirstFault_iff_of_found _ hfound]
    simp [eq_comm]

/-- The part of the text that is blamed stands in it. -/
theorem HasFault.isExcerpt (h : HasFault raw place error) : Text.IsExcerpt error.fragment raw := by
  cases h with
  | fieldCount _ _ => exact .refl raw
  | field hfields h =>
    cases h with
    | operator _ => exact hfields.isExcerpt (by simp [EffectError.fragment])
    | amount _ => exact hfields.isExcerpt (by simp [EffectError.fragment])
    | stat _ => exact hfields.isExcerpt (by simp [EffectError.fragment])
    | condition h => exact (Condition.isExcerpt_of_read_eq_error h).trans (hfields.isExcerpt (by simp))

/-! ## The main statement -/

/-- **A text is an effect or has a first fault, and that fault is blamed.** An effect has four fields, each of
which is what it should be. Of any other text the reader blames the first of these: the number of fields, the
operator, the amount, the pool, and the condition for what is wrong with it as a condition. A check shows the part
that is blamed, which is the text or an excerpt of it. -/
theorem read_blames_first_fault :
    (∀ raw effect, read raw = .ok effect ↔ Denotes raw effect) ∧
    (∀ raw error, read raw = .error error ↔ IsFirstFault (HasFault raw) error) ∧
    ∀ raw error, read raw = .error error →
      RuleCheck.ofEffect raw = .invalid error.message error.fragment error ∧
        Text.IsExcerpt error.fragment raw := by
  refine ⟨fun raw effect => read_eq_ok_iff_denotes, fun raw error => read_eq_error_iff,
    fun raw error h => ⟨by rw [RuleCheck.ofEffect, h], ?_⟩⟩
  obtain ⟨place, hfault, -⟩ := read_eq_error_iff.1 h
  exact hfault.isExcerpt

/-- An operator is blamed before the other three fields, and a condition after them. -/
example : read "Nowhere;%;1.5;Luck" = .error (.operator "%") ∧
    read "Nowhere:a; * ;-9223372036854775808;VEIL" =
      .error (.condition (.unknownKind "Nowhere")) := by
  decide +kernel

end Effect

end PerkGraph
