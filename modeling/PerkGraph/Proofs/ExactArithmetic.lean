import Mathlib.Data.Rat.Floor
import PerkGraph.Proofs.CheckedPoints
import PerkGraph.Rule.Effect

/-!
# Exact arithmetic

An operator gives the exact result whenever points can hold it, and otherwise tells why there is none
(`Operator.apply_isExact`). Sums, differences and products take one checked step in 64 bits. Division rounds down,
which 64 bits do not: the quotient rounded toward zero is corrected by one where something is left over and the
signs differ (`Points.floorDiv?`). Neither the remainder nor the correction is checked, and neither needs to be:
there is a remainder wherever there is a quotient, and a quotient that leaves something over is smaller than the
dividend (`natAbs_tdiv_lt`), so there is room for one less.
-/

namespace PerkGraph

/-! ## Rounding down -/

/-- Division that rounds down is the floor of the fraction. -/
theorem fdiv_eq_floor (a b : Int) : a.fdiv b = ⌊(a : ℚ) / b⌋ := by
  have hnatural (a : Int) (n : Nat) : a.fdiv n = ⌊(a : ℚ) / (n : Int)⌋ := by
    rw [Int.fdiv_eq_ediv_of_nonneg a (Int.natCast_nonneg n), Int.cast_natCast,
      Rat.floor_intCast_div_natCast]
  obtain ⟨n, rfl | rfl⟩ := b.eq_nat_or_neg
  · exact hnatural a n
  · calc a.fdiv (-n)
        = (-a).fdiv n := by rw [← Int.neg_fdiv_neg, Int.neg_neg]
      _ = ⌊((-a : Int) : ℚ) / (n : Int)⌋ := hnatural (-a) n
      _ = ⌊(a : ℚ) / (-n : Int)⌋ := by rw [Int.cast_neg, Int.cast_neg, div_neg, neg_div]

/-- Rounding down from rounding toward zero: one less where something is left over and the signs differ. -/
theorem fdiv_eq_tdiv_sub {a b : Int} (hb : b ≠ 0) :
    a.fdiv b = if a.tmod b ≠ 0 ∧ ¬(a < 0 ↔ b < 0) then a.tdiv b - 1 else a.tdiv b := by
  simp only [Int.fdiv_eq_tdiv, Int.dvd_iff_tmod_eq_zero]
  by_cases hrest : a.tmod b = 0
  · simp [hrest]
  · -- the library corrects by the sign of the divisor, which is not zero
    rcases Int.lt_or_gt_of_ne hb with hneg | hpos
    · rw [Int.sign_eq_neg_one_of_neg hneg]
      simp only [hrest, hneg, if_false, not_false_eq_true, ne_eq, true_and, iff_true]
      split <;> split <;> omega
    · rw [Int.sign_eq_one_of_pos hpos]
      simp only [hrest, if_false, not_false_eq_true, ne_eq, true_and]
      split <;> split <;> split <;> omega

/-- A quotient that leaves something over is smaller than the dividend. -/
theorem natAbs_tdiv_lt {a b : Int} (h : a.tmod b ≠ 0) : (a.tdiv b).natAbs < a.natAbs := by
  have hrest : a.natAbs % b.natAbs ≠ 0 := by rwa [← Int.natAbs_tmod, Int.natAbs_ne_zero]
  have ha : 0 < a.natAbs := Nat.pos_of_ne_zero fun hzero => hrest (by rw [hzero, Nat.zero_mod])
  have hone : b.natAbs ≠ 1 := fun hone => hrest (by rw [hone, Nat.mod_one])
  by_cases hzero : b = 0
  · rw [hzero, Int.tdiv_zero]
    exact ha
  · rw [Int.natAbs_tdiv]
    exact Nat.div_lt_self ha (by omega)

/-! ## Division in 64 bits -/

namespace Points

def one : Points := { val := 1 }

theorem exists_val_eq_iff {n : Int} : (∃ p : Points, p.val = n) ↔ -2 ^ 63 ≤ n ∧ n < 2 ^ 63 := by
  constructor
  · rintro ⟨p, rfl⟩
    exact ⟨p.lower, p.upper⟩
  · rintro ⟨hlower, hupper⟩
    exact ⟨{ val := n, lower := hlower, upper := hupper }, rfl⟩

/-- What a checked step comes to. -/
def orOverflow (result : Option Points) : Except ArithmeticError Points :=
  result.elim (.error .overflow) .ok

end Points

theorem Operator.apply_eq_orOverflow {operator : Operator} {value amount : Points}
    (h : ¬(operator = .divide ∧ amount = .zero)) :
    operator.apply value amount =
      Points.orOverflow (Points.ofInt? (operator.exact value.val amount.val)) := by
  rw [Operator.apply, if_neg h]
  cases Points.ofInt? (operator.exact value.val amount.val) <;> rfl

namespace Points

/-- Division rounded down, step by step. The quotient is checked. The steps after it are not: there is no result
at all if one of them has none. -/
def floorDiv? (value divisor : Points) : Option (Except ArithmeticError Points) :=
  if divisor = zero then some (.error .divisionByZero)
  else match value.div? divisor with
    | none => some (.error .overflow)
    | some quotient => do
      let rest ← value.rem? divisor
      if rest ≠ zero ∧ ¬(value.val < 0 ↔ divisor.val < 0) then
        let lower ← quotient.sub? one
        return .ok lower
      else return .ok quotient

section Division

variable {value divisor quotient : Points}

theorem exists_ofInt? {n : Int} (h : n.natAbs < 0x8000000000000000) : ∃ p, ofInt? n = some p :=
  ⟨{ val := n, lower := by omega, upper := by omega }, ofInt?_eq_some_iff.2 rfl⟩

theorem natAbs_le (p : Points) : p.val.natAbs ≤ 0x8000000000000000 := by
  have hlower := p.lower
  have hupper := p.upper
  omega

theorem div?_eq (h : divisor ≠ zero) : value.div? divisor = ofInt? (value.val.tdiv divisor.val) :=
  if_neg h

/-- Where there is a quotient there is a remainder: it is smaller than the divisor. -/
theorem exists_rem? (hdivisor : divisor.val ≠ 0) (h : value.div? divisor = some quotient) :
    ∃ rest, value.rem? divisor = some rest ∧ rest.val = value.val.tmod divisor.val := by
  have hsmall : (value.val.tmod divisor.val).natAbs < divisor.val.natAbs := by
    rw [Int.natAbs_tmod]
    exact Nat.mod_lt _ (Int.natAbs_pos.2 hdivisor)
  obtain ⟨rest, hrest⟩ := exists_ofInt? (Nat.lt_of_lt_of_le hsmall divisor.natAbs_le)
  refine ⟨rest, ?_, ofInt?_eq_some_iff.1 hrest⟩
  rw [rem?, h, Option.bind_some, hrest]

/-- Where something is left over there is a quotient, and room for one less. -/
theorem exists_div? (hdivisor : divisor ≠ zero) (hrest : value.val.tmod divisor.val ≠ 0) :
    ∃ quotient lower, value.div? divisor = some quotient ∧ quotient.sub? one = some lower ∧
      quotient.val = value.val.tdiv divisor.val ∧ lower.val = quotient.val - 1 := by
  have hsmall := natAbs_tdiv_lt hrest
  have hvalue := value.natAbs_le
  obtain ⟨quotient, hquotient⟩ := exists_ofInt? (Nat.lt_of_lt_of_le hsmall hvalue)
  have hval := ofInt?_eq_some_iff.1 hquotient
  let lower : Points := ⟨quotient.val - 1, by omega, by have := quotient.upper; omega⟩
  exact ⟨quotient, lower, (div?_eq hdivisor).trans hquotient, sub?_eq_some_iff.2 rfl, hval, rfl⟩

/-- Step by step, division comes to what it comes to at once, and no step is without a result. -/
theorem floorDiv?_eq (value divisor : Points) :
    value.floorDiv? divisor = some (Operator.divide.apply value divisor) := by
  by_cases hzero : divisor = zero
  · rw [floorDiv?, if_pos hzero, Operator.apply, if_pos ⟨rfl, hzero⟩]
  · have hdivisor : divisor.val ≠ 0 := fun h => hzero (Points.ext h)
    have happly : Operator.divide.apply value divisor =
        orOverflow (ofInt? (value.val.fdiv divisor.val)) :=
      Operator.apply_eq_orOverflow fun h => hzero h.2
    rw [floorDiv?, if_neg hzero, happly, fdiv_eq_tdiv_sub hdivisor]
    cases hdiv : value.div? divisor with
    | none =>
      have hexact : value.val.tmod divisor.val = 0 := by
        by_contra hrest
        obtain ⟨quotient, _, hquotient, -⟩ := exists_div? hzero hrest
        cases hdiv.symm.trans hquotient
      rw [if_neg (fun h => h.1 hexact), ← div?_eq hzero, hdiv]
      rfl
    | some quotient =>
      obtain ⟨rest, hrem, hrest⟩ := exists_rem? hdivisor hdiv
      have hleft : rest ≠ zero ↔ value.val.tmod divisor.val ≠ 0 := by
        rw [ne_eq, Points.ext_iff, hrest, val_zero]
      simp only [hrem, Option.bind_eq_bind, Option.bind_some, hleft]
      split
      · rename_i hcorrect
        obtain ⟨_, lower, hquotient, hsub, hval, hlower⟩ := exists_div? hzero hcorrect.1
        cases hdiv.symm.trans hquotient
        rw [hsub, ← hval, ← hlower, ofInt?_val]
        rfl
      · rw [← div?_eq hzero, hdiv]
        rfl

end Division

end Points

/-! ## The main statement -/

namespace Operator

/-- What an operator is to compute, in the arithmetic of fractions. -/
def ideal (operator : Operator) (value amount : Int) : Int :=
  match operator with
  | add => value + amount
  | subtract => value - amount
  | multiply => value * amount
  | divide => ⌊(value : ℚ) / amount⌋

/-- What an operator comes to, step by step. There is no result at all if a step that is not checked has none. -/
def steps? (operator : Operator) (value amount : Points) : Option (Except ArithmeticError Points) :=
  match operator with
  | add => some (Points.orOverflow (value.add? amount))
  | subtract => some (Points.orOverflow (value.sub? amount))
  | multiply => some (Points.orOverflow (value.mul? amount))
  | divide => value.floorDiv? amount

theorem exact_eq_ideal (operator : Operator) (value amount : Int) :
    operator.exact value amount = operator.ideal value amount := by
  cases operator with
  | add => rfl
  | subtract => rfl
  | multiply => rfl
  | divide => exact fdiv_eq_floor value amount

theorem steps?_eq (operator : Operator) (value amount : Points) :
    operator.steps? value amount = some (operator.apply value amount) := by
  cases operator with
  | divide => exact Points.floorDiv?_eq value amount
  | add | subtract | multiply =>
    rw [apply_eq_orOverflow (by simp)]
    rfl

theorem apply_eq_divisionByZero_iff {operator : Operator} {value amount : Points} :
    operator.apply value amount = .error .divisionByZero ↔ operator = divide ∧ amount = .zero := by
  by_cases h : operator = divide ∧ amount = .zero
  · rw [apply, if_pos h]
    exact iff_of_true rfl h
  · rw [apply_eq_orOverflow h]
    cases Points.ofInt? (operator.exact value.val amount.val) <;> simp [Points.orOverflow, h]

/-- An overflow says that no points are worth the exact result. -/
theorem apply_eq_overflow_iff {operator : Operator} {value amount : Points} :
    operator.apply value amount = .error .overflow ↔
      ¬(operator = divide ∧ amount = .zero) ∧
        ¬∃ total : Points, total.val = operator.exact value.val amount.val := by
  by_cases h : operator = divide ∧ amount = .zero
  · rw [apply, if_pos h]
    simp [h]
  · simp only [apply_eq_orOverflow h, h, not_false_eq_true, true_and, ← Points.ofInt?_eq_some_iff]
    cases Points.ofInt? (operator.exact value.val amount.val) <;> simp [Points.orOverflow]

/-- **Operators are exact**, on all points. Without division by zero the result is the ideal one if that is in
range, and an overflow if it is not; there is no other result. It is found step by step in 64 bits, and no step
without a check leaves the range. -/
theorem apply_isExact (operator : Operator) (value amount : Points) :
    let result := operator.apply value amount
    let ideal := operator.ideal value.val amount.val
    operator.steps? value amount = some result ∧
    (result = .error .divisionByZero ↔ operator = divide ∧ amount.val = 0) ∧
    (¬(operator = divide ∧ amount.val = 0) →
      ((∃ total, result = .ok total ∧ total.val = ideal) ↔ -2 ^ 63 ≤ ideal ∧ ideal < 2 ^ 63) ∧
      (result = .error .overflow ↔ ¬(-2 ^ 63 ≤ ideal ∧ ideal < 2 ^ 63))) := by
  intro result ideal
  have hzero : amount.val = 0 ↔ amount = .zero := by rw [Points.ext_iff, Points.val_zero]
  have hideal : operator.exact value.val amount.val = ideal := exact_eq_ideal _ _ _
  rw [hzero, ← Points.exists_val_eq_iff]
  refine ⟨steps?_eq operator value amount, apply_eq_divisionByZero_iff, fun hdefined => ⟨?_, ?_⟩⟩
  · refine exists_congr fun total => ?_
    rw [apply_eq_ok_iff, hideal, and_iff_right hdefined, and_self_iff]
  · rw [apply_eq_overflow_iff, hideal, and_iff_right hdefined]

/-- The one quotient out of range, and one that is rounded down. -/
example :
    let least : Points := { val := -9223372036854775808 }
    divide.apply least { val := -1 } = .error .overflow ∧
      divide.apply { val := -7 } { val := 2 } = .ok { val := -4 } := by
  decide

end Operator

end PerkGraph
