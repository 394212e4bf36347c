import PerkGraph.Rule.Effect
import PerkGraph.Rule.Gate

/-! # Failures

Everything that can keep a rule from taking effect, as one type: a text that is no rule, an extension
that nobody answers for, arithmetic without a result.
-/

namespace PerkGraph

/-- Why a rule has no effect. -/
inductive Failure where
  /-- The text of an effect is none. -/
  | effect (error : EffectError)
  /-- The text of a gate rule is none. -/
  | gate (error : GateError)
  /-- No extension answers for a condition of this kind. -/
  | unresolved (kind : String)
  /-- The operator of an effect has no result. -/
  | arithmetic (error : ArithmeticError)
deriving DecidableEq

namespace Failure

/-- What is wrong, in words. An unknown condition kind reads the same whether the text of the effect
or the extensions do not know it. -/
def message : Failure → String
  | effect (.condition (.unknownKind kind)) => unknownKindMessage kind
  | effect error => "malformed effect: " ++ error.message
  | gate error => "invalid gate condition: " ++ error.message
  | unresolved kind => unknownKindMessage kind
  | arithmetic error => error.message

end Failure

end PerkGraph
