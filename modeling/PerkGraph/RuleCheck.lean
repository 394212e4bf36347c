import PerkGraph.Shown.Rule

/-! # Rule checks

Checking a single rule text: either what it denotes and its canonical text, or what is wrong with it and
which part is to blame.
-/

namespace PerkGraph

/-- The result of checking one rule text. -/
inductive RuleCheck (α ε : Type) where
  | valid (parsed : α) (canonical : String)
  | invalid (message fragment : String) (error : ε)
deriving DecidableEq

namespace RuleCheck

def ofEffect (raw : String) : RuleCheck Effect EffectError :=
  match Effect.read raw with
  | .ok effect => .valid effect effect.text
  | .error error => .invalid error.message error.fragment error

def ofGate (raw : String) : RuleCheck GateRule GateError :=
  match GateRule.read raw with
  | .ok rule => .valid rule rule.text
  | .error error => .invalid error.message error.fragment error

variable {α ε : Type}

/-- The text denotes a rule. -/
def isValid : RuleCheck α ε → Bool
  | valid _ _ => true
  | invalid _ _ _ => false

/-- The result in one line. -/
def line : RuleCheck α ε → String
  | valid _ canonical => canonical
  | invalid message fragment _ => "error: " ++ message ++ " (at '" ++ fragment ++ "')"

/-- The fields of the result's tree. -/
def jsonFields (showRule : α → Json) (showError : ε → Json) :
    RuleCheck α ε → List (String × Json)
  | valid parsed canonical =>
    [("status", .string "valid"), ("parsed", showRule parsed), ("canonical", .string canonical)]
  | invalid message fragment error =>
    [("status", .string "invalid"), ("message", .string message), ("fragment", .string fragment),
      ("error", showError error)]

def toJson (showRule : α → Json) (showError : ε → Json) (check : RuleCheck α ε) : Json :=
  .record (check.jsonFields showRule showError)

end RuleCheck

end PerkGraph
