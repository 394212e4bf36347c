import PerkGraph.Proofs.Findings
import PerkGraph.Proofs.TraceRecord

/-!
# What validation leaves to the pools

Validation reads every effect text, so a contract without defects carries effects only, and none on a gate.
What may still fail is an extension that does not answer and arithmetic without a result
(`failed_cases`), whatever the team and the selection. The other way round, an effect that fails because its
text is none, or because nobody knows its kind of condition, is a defect that validation reports
(`validate_bounds_failures`).
-/

namespace PerkGraph

/-! ## Kinds of failure -/

namespace Failure

/-- The kind of condition that, so the failure, nobody knows: the text of the effect or the extensions. -/
def unknownKind? : Failure → Option String
  | effect (.condition (.unknownKind kind)) => some kind
  | unresolved kind => some kind
  | _ => none

/-- The failure says that a text is no effect, for another reason than an unknown kind of condition. -/
def isMalformed : Failure → Bool
  | effect (.condition (.unknownKind _)) => false
  | effect _ => true
  | _ => false

end Failure

namespace Extensions

/-- The extensions refuse a question in no other name than that of its kind. -/
def NamesKind (extensions : Extensions) : Prop :=
  ∀ query kind, extensions query = .error kind → kind = Vocabulary.name query.kind

theorem namesKind_unresolved : unresolved.NamesKind := by
  intro query kind h
  cases h
  rfl

theorem namesKind_ofRules (rules : List Rule) : (ofRules rules).NamesKind := by
  intro query kind h
  unfold ofRules at h
  split at h
  · cases h
  · exact namesKind_unresolved query kind h

end Extensions

/-! ## Failures and slots -/

namespace Situation

variable {situation : Situation} {node : Node} {slot : EffectSlot} {entry : TraceEntry}

/-- The ways in which the effect in a slot fails. -/
theorem Records.failed_cases (h : situation.Records node slot entry) {failure : Failure}
    (hfailed : entry.content = .failed failure) :
    (∃ error, slot.effect = .error error ∧ failure = .effect error) ∨
    (∃ effect query kind, slot.effect = .ok effect ∧ situation.extensions query = .error kind ∧
      failure = .unresolved kind) ∨
    ∃ effect error, slot.effect = .ok effect ∧ failure = .arithmetic error := by
  cases heffect : slot.effect with
  | error error =>
    have hcontent := (h.malformed error).2 heffect
    cases hcontent.symm.trans hfailed
    exact .inl ⟨error, rfl, rfl⟩
  | ok effect =>
    right
    cases hholds : situation.holds effect.condition node.id with
    | error kind =>
      obtain ⟨extension, argument, hcondition, hanswer⟩ := holds_eq_error_iff.1 hholds
      have hcontent := (h.unresolved kind).2 ⟨effect, extension, argument, heffect, hcondition, hanswer⟩
      cases hcontent.symm.trans hfailed
      exact .inl ⟨effect, _, kind, rfl, hanswer, rfl⟩
    | ok met =>
      cases met with
      | false =>
        have hcontent := h.notMet.2 ⟨effect, heffect, hholds⟩
        cases hcontent.symm.trans hfailed
      | true =>
        rcases h.turn.2 ⟨effect, heffect, hholds⟩ with ⟨_, _, _, hcontent⟩ | ⟨error, hcontent⟩
        · cases hcontent.symm.trans hfailed
        · cases hcontent.symm.trans hfailed
          exact .inr ⟨effect, error, rfl, rfl⟩

end Situation

namespace Contract

variable {contract : Contract} {roster : Roster} {selection : Selection} {ratios : PreventionRatios}
  {extensions : Extensions} {entry : TraceEntry}

/-- Every entry of a trace records an effect slot of a node of the contract. -/
theorem exists_slot_of_mem_trace
    (h : entry ∈ (contract.poolReport roster selection ratios extensions).trace) :
    ∃ node slot, contract.node? node.id = some node ∧ slot ∈ node.effects ∧
      Situation.Records
        { contract, roster, selected := contract.effective roster selection, extensions } node slot
        entry := by
  obtain ⟨node, slot, hslot, hrecords⟩ := Situation.exists_records h
  exact ⟨node, slot, hslot.found, hslot.listed, hrecords⟩

theorem not_hasDefect_of_isOk (h : contract.validate.isOk = true) (defect : Defect) :
    ¬contract.HasDefect defect := by
  rw [← mem_errors_iff, List.isEmpty_iff.1 h]
  exact List.not_mem_nil

/-- Without defects no gate has an entry in a trace. -/
theorem kind_ne_gate_of_isOk (h : contract.validate.isOk = true)
    (hentry : entry ∈ (contract.poolReport roster selection ratios extensions).trace) :
    ∃ node, contract.node? entry.node = some node ∧ node.kind ≠ .gate := by
  obtain ⟨node, slot, hnode, hslot, hrecords⟩ := exists_slot_of_mem_trace hentry
  refine ⟨node, hrecords.node_eq ▸ hnode, fun hkind => ?_⟩
  exact not_hasDefect_of_isOk h _
    (.effectsOnGate (mem_of_node? hnode) hkind (List.ne_nil_of_mem hslot))

/-- Without defects an effect fails in two ways only. -/
theorem failed_cases_of_isOk (h : contract.validate.isOk = true)
    (hentry : entry ∈ (contract.poolReport roster selection ratios extensions).trace)
    {failure : Failure} (hfailed : entry.content = .failed failure) :
    (∃ query kind, extensions query = .error kind ∧ failure = .unresolved kind) ∨
      ∃ error, failure = .arithmetic error := by
  obtain ⟨node, slot, hnode, hslot, hrecords⟩ := exists_slot_of_mem_trace hentry
  rcases hrecords.failed_cases hfailed with ⟨error, herror, -⟩ |
    ⟨_, query, kind, -, hanswer, rfl⟩ | ⟨_, error, -, rfl⟩
  · exact absurd (.badEffect (mem_of_node? hnode) hslot herror) (not_hasDefect_of_isOk h _)
  · exact .inl ⟨query, kind, hanswer, rfl⟩
  · exact .inr ⟨error, rfl⟩

/-- An effect whose text is to blame for its failure is a defect. -/
theorem badEffect_mem_errors
    (hentry : entry ∈ (contract.poolReport roster selection ratios extensions).trace)
    {error : EffectError} (hfailed : entry.content = .failed (.effect error)) :
    .badEffect entry.node entry.slot entry.raw error ∈ contract.validate.errors := by
  obtain ⟨node, slot, hnode, hslot, hrecords⟩ := exists_slot_of_mem_trace hentry
  rw [hrecords.node_eq, hrecords.slot_eq, hrecords.raw_eq]
  exact mem_errors_iff.2
    (.badEffect (mem_of_node? hnode) hslot ((hrecords.malformed error).1 hfailed))

/-! ## The main statement -/

/-- **Validation and the pools agree on what may fail.** In a contract without defects no gate has an entry in
any trace, and an effect fails by arithmetic or because no extension answers for its kind; where
extensions answer everything, by arithmetic only. In any contract an effect that fails for a malformed text,
or for a kind of condition that is none of the extensions', is one of the defects. Extensions refuse a question
in the name of its kind: those that answer nothing do, and those made of rules. -/
theorem validate_bounds_failures (contract : Contract) :
    (contract.validate.isOk = true → ∀ roster selection ratios extensions,
      let trace := (contract.poolReport roster selection ratios extensions).trace
      (∀ entry ∈ trace, ∃ node, contract.node? entry.node = some node ∧ node.kind ≠ .gate) ∧
      (extensions.NamesKind → ∀ entry ∈ trace, ∀ failure, entry.content = .failed failure →
        (∃ error, failure = .arithmetic error) ∨
          ∃ kind : ExtensionKind, failure = .unresolved (Vocabulary.name kind)) ∧
      ((∀ query, ∃ answer, extensions query = .ok answer) → ∀ entry ∈ trace, ∀ failure,
        entry.content = .failed failure → ∃ error, failure = .arithmetic error)) ∧
    (∀ roster selection ratios extensions, extensions.NamesKind →
      ∀ entry ∈ (contract.poolReport roster selection ratios extensions).trace, ∀ failure,
        entry.content = .failed failure →
        (failure.isMalformed = true ∨
          ∃ kind, failure.unknownKind? = some kind ∧
            ∀ known : ExtensionKind, kind ≠ Vocabulary.name known) →
        ∃ error, failure = .effect error ∧
          .badEffect entry.node entry.slot entry.raw error ∈ contract.validate.errors) ∧
    Extensions.unresolved.NamesKind ∧ ∀ rules, (Extensions.ofRules rules).NamesKind := by
  refine ⟨fun hok roster selection ratios extensions => ⟨fun entry hentry => ?_,
    fun hnames entry hentry failure hfailed => ?_, fun htotal entry hentry failure hfailed => ?_⟩,
    fun roster selection ratios extensions hnames entry hentry failure hfailed hkind => ?_,
    Extensions.namesKind_unresolved, Extensions.namesKind_ofRules⟩
  · exact kind_ne_gate_of_isOk hok hentry
  · rcases failed_cases_of_isOk hok hentry hfailed with ⟨query, kind, hanswer, rfl⟩ | harithmetic
    · exact .inr ⟨query.kind, by rw [hnames query kind hanswer]⟩
    · exact .inl harithmetic
  · rcases failed_cases_of_isOk hok hentry hfailed with ⟨query, kind, hanswer, -⟩ | harithmetic
    · obtain ⟨answer, hok⟩ := htotal query
      cases hok.symm.trans hanswer
    · exact harithmetic
  · obtain ⟨node, slot, -, -, hrecords⟩ := exists_slot_of_mem_trace hentry
    rcases hrecords.failed_cases hfailed with ⟨error, -, rfl⟩ |
      ⟨_, query, kind, -, hanswer, rfl⟩ | ⟨_, error, -, rfl⟩
    · exact ⟨error, rfl, badEffect_mem_errors hentry hfailed⟩
    · -- an extension refuses in the name of a kind that is known
      rcases hkind with hmalformed | ⟨other, hother, hunknown⟩
      · cases hmalformed
      · cases hother
        exact absurd (hnames query kind hanswer) (hunknown query.kind)
    · rcases hkind with hmalformed | ⟨other, hother, -⟩
      · cases hmalformed
      · cases hother

/-- A contract without defects where nobody answers for the extension that one effect asks, and another effect
divides by zero; and a contract where nobody knows the kind of a condition. -/
theorem validate_bounds_failures_unanswered :
    let clean : Contract :=
      { name := "heist"
        nodes :=
          [.ofRecord
            { id := "start", kind := .start, effect1 := some "PrevDam:3;+;1;Grit"
              effect2 := some "None;/;0;Damage" }]
        ascending := by decide
        wellFormed := by decide
        closed := by decide }
    let flawed : Contract :=
      { name := "heist"
        nodes := [.ofRecord { id := "start", kind := .start, effect1 := some "Luck;+;1;Money" }]
        ascending := by decide
        wellFormed := by decide
        closed := by decide }
    let selection : Selection := { ids := ["start"], nodup := by decide }
    let trace := (clean.poolReport .empty selection {} .unresolved).trace
    clean.validate.isOk = true ∧
    trace.map SlotEntry.content = [.failed (.unresolved "PrevDam"), .failed (.arithmetic .divisionByZero)] ∧
    (∀ entry ∈ trace, ∀ failure, entry.content = .failed failure →
      (∃ error, failure = .arithmetic error) ∨
        ∃ kind : ExtensionKind, failure = .unresolved (Vocabulary.name kind)) ∧
    ∃ error, .badEffect "start" .first "Luck;+;1;Money" error ∈ flawed.validate.errors := by
  intro clean flawed selection trace
  have hclean : clean.validate.isOk = true := by decide +kernel
  have htrace : trace.map SlotEntry.content =
      [.failed (.unresolved "PrevDam"), .failed (.arithmetic .divisionByZero)] := by decide +kernel
  obtain ⟨-, hbounded, -⟩ :=
    (validate_bounds_failures clean).1 hclean .empty selection {} .unresolved
  let entry : TraceEntry :=
    { node := "start", slot := .first, raw := "Luck;+;1;Money"
      content := .failed (.effect (.condition (.unknownKind "Luck"))) }
  have hentry : entry ∈ (flawed.poolReport .empty selection {} .unresolved).trace := by decide +kernel
  have hunknown (known : ExtensionKind) : "Luck" ≠ Vocabulary.name known := by
    cases known <;> decide
  obtain ⟨error, -, hreported⟩ := (validate_bounds_failures flawed).2.1 .empty selection {} .unresolved
    Extensions.namesKind_unresolved entry hentry _ rfl (.inr ⟨"Luck", rfl, hunknown⟩)
  exact ⟨hclean, htrace, hbounded Extensions.namesKind_unresolved, error, hreported⟩

end Contract

end PerkGraph
