import PerkGraph.Proofs.EditedRecords
import PerkGraph.Proofs.EffectText
import PerkGraph.Proofs.GateText
import PerkGraph.Proofs.SameMeaning

/-!
# Records with canonical rule texts

Putting the canonical text in place of every rule text that denotes a rule changes the wording of a contract
and not its meaning (`Contract.build_canonical`). A text is checked as it stands in the record and read as
it is kept in the node, trimmed; both readings denote the same, and so does the canonical text
(`rel_ofString?_canonicalText`). The wording of rule texts is no concern of building, which pairs up the nodes
(`NodeRecord.isEdit_canonical`).
-/

namespace PerkGraph

/-! ## Canonical records -/

/-- The canonical text that a check reports, or the text that it was made on. -/
def RuleCheck.canonicalText {α ε : Type} (check : RuleCheck α ε) (raw : String) : String :=
  match check with
  | .valid _ canonical => canonical
  | .invalid _ _ _ => raw

/-- The record with the canonical text for every rule text that denotes a rule. -/
def NodeRecord.canonical (record : NodeRecord) : NodeRecord :=
  { record with
    effect1 := record.effect1.map fun raw => (RuleCheck.ofEffect raw).canonicalText raw
    effect2 := record.effect2.map fun raw => (RuleCheck.ofEffect raw).canonicalText raw
    gate := record.gate.map fun raw => (RuleCheck.ofGate raw).canonicalText raw }

namespace RuleText

theorem rel_ofString?_self {ε α : Type} (read : String → Except ε α) (raw : String) :
    Option.Rel (MeansLike read) (ofString? raw) (ofString? raw) := by
  cases ofString? raw with
  | none => exact .none
  | some rule => exact .some (.same rule)

/-- Texts that denote the same when trimmed are both kept. -/
theorem rel_ofString?_of_read {ε α : Type} {read : String → Except ε α}
    (hblank : ∀ meaning, read "" ≠ .ok meaning) {raw other : String} {meaning : α}
    (hraw : read (Text.trim raw) = .ok meaning) (hother : read (Text.trim other) = .ok meaning) :
    Option.Rel (MeansLike read) (ofString? raw) (ofString? other) := by
  have hkept {text : String} (h : read (Text.trim text) = .ok meaning) : Text.trim text ≠ "" := by
    intro hempty
    rw [hempty] at h
    exact hblank meaning h
  unfold ofString?
  rw [dif_pos (hkept hraw), dif_pos (hkept hother)]
  exact .some (.reworded hraw hother)

end RuleText

theorem Effect.read_empty : read "" = .error (.fieldCount "" 1) := rfl

theorem GateRule.read_empty : read "" = .error (.fieldCount "") := rfl

theorem Effect.read_trim {raw : String} {effect : Effect} :
    read (Text.trim raw) = .ok effect ↔ read raw = .ok effect := by
  rw [read_eq_ok_iff, read_eq_ok_iff, Text.trim_trim]

theorem GateRule.read_trim (raw : String) : read (Text.trim raw) = read raw := by
  unfold read
  rw [Text.trim_trim]

theorem Effect.rel_ofString?_canonicalText (raw : String) :
    Option.Rel (RuleText.MeansLike read) (RuleText.ofString? raw)
      (RuleText.ofString? ((RuleCheck.ofEffect raw).canonicalText raw)) := by
  unfold RuleCheck.ofEffect
  cases hread : read raw with
  | error error => exact RuleText.rel_ofString?_self read raw
  | ok effect =>
    have hback : read effect.text = .ok effect := read_text (isCanonical_of_read hread)
    refine RuleText.rel_ofString?_of_read (fun _ hempty => ?_) (read_trim.2 hread) (read_trim.2 hback)
    cases read_empty.symm.trans hempty

theorem GateRule.rel_ofString?_canonicalText (raw : String) :
    Option.Rel (RuleText.MeansLike read) (RuleText.ofString? raw)
      (RuleText.ofString? ((RuleCheck.ofGate raw).canonicalText raw)) := by
  unfold RuleCheck.ofGate
  cases hread : read raw with
  | error error => exact RuleText.rel_ofString?_self read raw
  | ok rule =>
    have hback : read rule.text = .ok rule := read_text (isCanonical_of_read hread)
    refine RuleText.rel_ofString?_of_read (fun _ hempty => ?_) ((read_trim raw).trans hread)
      ((read_trim rule.text).trans hback)
    cases read_empty.symm.trans hempty

theorem rel_bind_map {α : Type} {R : α → α → Prop} {keep : String → Option α}
    {reword : String → String} (h : ∀ raw, Option.Rel R (keep raw) (keep (reword raw)))
    (raw : Option String) : Option.Rel R (raw.bind keep) ((raw.map reword).bind keep) := by
  cases raw with
  | none => exact .none
  | some raw => exact h raw

theorem Node.ofRecord_canonical (record : NodeRecord) :
    (ofRecord record).MeansLike (ofRecord record.canonical) where
  id_eq := rfl
  kind_eq := rfl
  color_eq := rfl
  effect1 := rel_bind_map Effect.rel_ofString?_canonicalText record.effect1
  effect2 := rel_bind_map Effect.rel_ofString?_canonicalText record.effect2
  gate := rel_bind_map GateRule.rel_ofString?_canonicalText record.gate
  connections_eq := rfl

theorem NodeRecord.isEdit_canonical : IsEdit canonical Node.MeansLike where
  id_eq _ _ hnode := hnode.id_eq
  connections_eq _ _ hnode := hnode.connections_eq
  related := Node.ofRecord_canonical

/-- Rules are spelled in the canonical way; a text that denotes no rule stays as it is. -/
example :
    NodeRecord.canonical
        { id := "a", kind := .gate, effect1 := some " nodecolor : gray ;+;07;money"
          effect2 := some "None;+;many;Risk", gate := some "node: b , a ;+1" } =
      { id := "a", kind := .gate, effect1 := some "NodeColor:Grey;+;7;Money"
        effect2 := some "None;+;many;Risk", gate := some "Node:a,b;1" } := by
  decide +kernel

namespace Contract

theorem exists_build_canonical {name : String} {records : List NodeRecord} {contract : Contract}
    (h : build name records = .ok contract) :
    ∃ other, build name (records.map NodeRecord.canonical) = .ok other ∧
      contract.MeansLike other :=
  exists_build_map NodeRecord.isEdit_canonical h

theorem build_canonical_eq_error {name : String} {records : List NodeRecord}
    {error : ContractError} (h : build name records = .error error) :
    build name (records.map NodeRecord.canonical) = .error error :=
  build_map_eq_error NodeRecord.isEdit_canonical h

/-! ## The main statement -/

/-- **Canonical texts keep the meaning of a contract.** The records with canonical rule texts build a
contract again, or fail for the same reason. In both contracts every selection has the same ids in effect and
leaves the nodes in the same states, every transition goes the same way, and pool reports differ in the raw
texts of their traces only. Validation finds the same errors and as many warnings. -/
theorem build_canonical (name : String) (records : List NodeRecord) :
    (∀ contract, build name records = .ok contract →
      ∃ other, build name (records.map NodeRecord.canonical) = .ok other ∧
        (∀ roster selection,
          contract.effective roster selection = other.effective roster selection ∧
          contract.availability roster selection = other.availability roster selection ∧
          contract.prune roster selection = other.prune roster selection ∧
          (∀ id, contract.select roster selection id = other.select roster selection id ∧
            contract.deselect roster selection id = other.deselect roster selection id) ∧
          ∀ ratios extensions,
            (contract.poolReport roster selection ratios extensions).Matches
              (other.poolReport roster selection ratios extensions)) ∧
        contract.validate.isOk = other.validate.isOk ∧
        contract.validate.errors = other.validate.errors ∧
        contract.validate.warnings.length = other.validate.warnings.length) ∧
    ∀ error, build name records = .error error →
      build name (records.map NodeRecord.canonical) = .error error := by
  refine ⟨fun contract hbuild => ?_, fun error herror => build_canonical_eq_error herror⟩
  obtain ⟨other, hother, hlike⟩ := exists_build_canonical hbuild
  have hopens : contract.OpensLike other := hlike.opensLike
  refine ⟨other, hother, fun roster selection => ⟨hopens.effective_eq roster selection,
    hopens.availability_eq roster selection, hopens.prune_eq roster selection, fun id =>
    ⟨hopens.select_eq roster selection id, hopens.deselect_eq roster selection id⟩, ?_⟩, ?_,
    hlike.errors_eq, hlike.length_warnings⟩
  · exact hlike.report_matches roster selection
  · rw [Validation.isOk, Validation.isOk, hlike.errors_eq]

end Contract

end PerkGraph
