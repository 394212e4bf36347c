import PerkGraph.Pools
import PerkGraph.Rule.Condition

/-! # Effects

What a selected node does to a pool, and its text `Condition;Operator;Amount;Stat`. Main statement:
`Operator.apply` is exact arithmetic on whole numbers with two ways to fail, a division by zero and a result
out of range (`apply_eq_ok_iff`).
-/

namespace PerkGraph

/-! ## Operators -/

/-- The arithmetic of an effect. -/
inductive Operator where
  | add
  | subtract
  | multiply
  | divide
deriving DecidableEq, Repr

/-- Why an operator gives no result. -/
inductive ArithmeticError where
  | divisionByZero
  | overflow
deriving DecidableEq, Repr

def ArithmeticError.message : ArithmeticError → String
  | divisionByZero => "division by zero"
  | overflow => "integer overflow"

namespace Operator

def sign : Operator → String
  | add => "+"
  | subtract => "-"
  | multiply => "*"
  | divide => "/"

def ofSign? (s : String) : Option Operator :=
  [add, subtract, multiply, divide].find? fun operator => operator.sign == s

/-- Addition and subtraction commute with each other, but not with the other two. -/
def isAdditive : Operator → Bool
  | add | subtract => true
  | multiply | divide => false

/-- The result on whole numbers of any size. Division rounds down. -/
def exact (operator : Operator) (value amount : Int) : Int :=
  match operator with
  | add => value + amount
  | subtract => value - amount
  | multiply => value * amount
  | divide => value.fdiv amount

/-- The result on points: the exact one, if there is one and it is in range. -/
def apply (operator : Operator) (value amount : Points) : Except ArithmeticError Points :=
  if operator = divide ∧ amount = .zero then .error .divisionByZero
  else match Points.ofInt? (operator.exact value.val amount.val) with
    | some result => .ok result
    | none => .error .overflow

/-- A result is the exact one. -/
theorem apply_eq_ok_iff {operator : Operator} {value amount result : Points} :
    operator.apply value amount = .ok result ↔
      ¬(operator = divide ∧ amount = .zero) ∧
        result.val = operator.exact value.val amount.val := by
  unfold apply
  split
  · rename_i h
    simp [h]
  · rename_i h
    rw [← Points.ofInt?_eq_some_iff]
    cases Points.ofInt? (operator.exact value.val amount.val) <;> simp [h]

end Operator

/-! ## Effects -/

/-- What a selected node does to a pool. -/
structure Effect where
  condition : Condition
  operator : Operator
  amount : Points
  stat : Stat
deriving DecidableEq

inductive EffectError where
  | fieldCount (raw : String) (found : Nat)
  | operator (field : String)
  | amount (field : String)
  | stat (field : String)
  | condition (error : ConditionError)
deriving DecidableEq

namespace EffectError

def message : EffectError → String
  | fieldCount raw found =>
    "expected 4 ';'-separated fields but found " ++ Text.showNat found ++ " in '" ++ raw ++ "'"
  | operator field => "unknown operator '" ++ field ++ "' (expected one of + - * /)"
  | amount field => "amount '" ++ field ++ "' is not an integer"
  | stat field =>
    "unknown stat '" ++ field ++ "' (expected Damage, Risk, Money, Grit or Veil)"
  | condition error => error.message

/-- The part of the text that is to blame. -/
def fragment : EffectError → String
  | fieldCount raw _ => raw
  | operator field => field
  | amount field => field
  | stat field => field
  | condition error => error.fragment

end EffectError

namespace Effect

/-- The canonical text of an effect. -/
def text (effect : Effect) : String :=
  Text.join ";"
    [effect.condition.text, effect.operator.sign, effect.amount.numeral, Vocabulary.name effect.stat]

/-- The effect of four trimmed fields. The condition is looked at last. -/
def ofFields (condition operator amount stat : String) : Except EffectError Effect := do
  let some operator := Operator.ofSign? operator | .error (.operator operator)
  let some amount := Points.read? amount | .error (.amount amount)
  let some stat := Vocabulary.read? stat | .error (.stat stat)
  match Condition.read condition with
  | .error error => .error (.condition error)
  | .ok condition => .ok { condition, operator, amount, stat }

/-- The effect that a text denotes. A division by zero is an effect; it fails when it is applied. -/
def read (raw : String) : Except EffectError Effect :=
  let fields := (Text.split ';' (Text.trim raw)).map Text.trim
  match fields with
  | [condition, operator, amount, stat] => ofFields condition operator amount stat
  | _ => .error (.fieldCount raw fields.length)

end Effect

end PerkGraph
