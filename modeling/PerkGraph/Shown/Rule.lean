import PerkGraph.Json
import PerkGraph.Rule.Failure

/-! # Rules as JSON

How conditions, effects, gate rules and their faults are reported.
-/

namespace PerkGraph

/-- The tree of a condition: its type, then what belongs to the type. -/
def Condition.toJson : Condition → Json
  | .always => .record [("type", .string "none")]
  | .runnerType type =>
    .record [("type", .string "runner_type"), ("runner_type", .string (Vocabulary.name type))]
  | .runnerStat stat comparison value =>
    .record
      [("type", .string "runner_stat"), ("stat", .string (Vocabulary.name stat)),
        ("comparison", .string comparison.sign), ("value", .integer value.val)]
  | .nodeColor color =>
    .record [("type", .string "node_color"), ("color", .string (Vocabulary.name color))]
  | .nodeColorCombo colors =>
    .record
      [("type", .string "node_color_combo"), ("colors", .strings (colors.map Vocabulary.name))]
  | .extension kind argument =>
    .record
      [("type", .string "extension"), ("kind", .string (Vocabulary.name kind)),
        ("argument", argument.elim .null .string)]

def Effect.toJson (effect : Effect) : Json :=
  .record
    [("condition", effect.condition.toJson), ("operator", .string effect.operator.sign),
      ("amount", .integer effect.amount.val), ("stat", .string (Vocabulary.name effect.stat))]

def GateRule.toJson (rule : GateRule) : Json :=
  .record
    [("kind", .string (Vocabulary.name rule.demand.kind)), ("params", .strings rule.demand.items),
      ("threshold", .nat rule.threshold)]

/-! ## Faults -/

/-- The tree of a reason and the fragment to blame. -/
def reasonJson (reason : String) (fragment : Json) : Json :=
  .record [("reason", .string reason), ("fragment", fragment)]

def unknownKindJson (kind : String) : Json :=
  .record [("kind", .string kind)]

def ConditionError.toJson : ConditionError → Json
  | .malformed text => reasonJson "condition" (.string text)
  | .unknownKind kind => unknownKindJson kind

def EffectError.toJson : EffectError → Json
  | .fieldCount raw found =>
    reasonJson "field_count" (.record [("raw", .string raw), ("found", .nat found)])
  | .operator field => reasonJson "operator" (.string field)
  | .amount field => reasonJson "amount" (.string field)
  | .stat field => reasonJson "stat" (.string field)
  | .condition error => error.toJson

/-- The word for the reason of a gate error. -/
def GateError.reason : GateError → String
  | .fieldCount _ => "field_count"
  | .missingKind _ => "missing_kind"
  | .unknownKind _ => "unknown_kind"
  | .emptyParameters _ => "empty_parameters"
  | .threshold _ => "threshold"
  | .negativeThreshold _ => "negative_threshold"
  | .unknownRunnerType _ => "unknown_runner_type"
  | .unknownStat _ => "unknown_stat"
  | .invalidNodeId _ => "invalid_node_id"
  | .duplicateNodeId _ => "duplicate_node_id"

def GateError.toJson (error : GateError) : Json :=
  reasonJson error.reason (.string error.fragment)

/-- The word for an arithmetic error. -/
def ArithmeticError.word : ArithmeticError → String
  | .divisionByZero => "division_by_zero"
  | .overflow => "overflow"

/-- The tree of a failure: the word for its source, and its details. -/
def Failure.toJson (failure : Failure) : Json :=
  let (source, detail) : String × Json := match failure with
    | .effect (.condition (.unknownKind kind)) => ("unknown_condition_kind", unknownKindJson kind)
    | .effect error => ("malformed_effect", error.toJson)
    | .gate error => ("invalid_gate_condition", error.toJson)
    | .unresolved kind => ("unknown_condition_kind", unknownKindJson kind)
    | .arithmetic error => ("eval", .string error.word)
  .record [("error", .string source), ("detail", detail)]

end PerkGraph
