import PerkGraph.Preview
import PerkGraph.Shown.Rule
import PerkGraph.Validation

/-! # Reports as JSON

How pools, traces, previews and validations are reported.
-/

namespace PerkGraph

def Pools.toJson (pools : Pools) : Json :=
  .record
    [("damage", .integer pools.damage.val), ("risk", .integer pools.risk.val),
      ("money", .integer pools.money.val), ("grit", .integer pools.grit.val),
      ("veil", .integer pools.veil.val)]

def Prevention.toJson (prevention : Prevention) : Json :=
  .record
    [("damage_prevented", .integer prevention.damagePrevented.val),
      ("grit_consumed", .integer prevention.gritConsumed.val),
      ("grit_remaining", .integer prevention.gritRemaining.val),
      ("risk_prevented", .integer prevention.riskPrevented.val),
      ("veil_consumed", .integer prevention.veilConsumed.val),
      ("veil_remaining", .integer prevention.veilRemaining.val)]

/-- The fields that tell what became of an effect. -/
def EffectOutcome.jsonFields : EffectOutcome → List (String × Json)
  | .applied stat before after =>
    [("outcome", .string "applied"), ("stat", .string (Vocabulary.name stat)),
      ("before", .integer before.val), ("after", .integer after.val)]
  | .conditionNotMet => [("outcome", .string "condition_not_met")]
  | .failed failure => [("outcome", .string "failed"), ("error", failure.toJson)]

def traceEntryJson (entry : TraceEntry) : Json :=
  .record
    ([("node_id", .string entry.node), ("slot", .nat entry.slot.toNat), ("raw", .string entry.raw)] ++
      entry.content.jsonFields)

/-- The fields of a pool report. -/
def PoolReport.jsonFields (report : PoolReport) : List (String × Json) :=
  [("raw", report.raw.toJson), ("pools", report.pools.toJson),
    ("prevention", report.prevention.toJson), ("trace", .array (report.trace.map traceEntryJson))]

/-- The tree of the state of every node, by id. -/
def availabilityJson (availability : List (String × NodeState)) : Json :=
  .record (availability.map fun entry => (entry.1, .string (Vocabulary.name entry.2)))

def Preview.toJson (preview : Preview) : Json :=
  .record
    ([("contract", .string preview.contract), ("selected", .strings preview.selected.toList),
      ("availability", availabilityJson preview.availability)] ++
      preview.report.jsonFields)

def Validation.toJson (validation : Validation) : Json :=
  .record
    [("errors", .strings (validation.errors.map Defect.message)),
      ("warnings", .strings (validation.warnings.map Caution.message))]

end PerkGraph
