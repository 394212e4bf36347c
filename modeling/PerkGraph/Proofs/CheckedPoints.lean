import Mathlib.Algebra.GroupWithZero.Nat
import Mathlib.Data.List.Forall2
import PerkGraph.Points

/-!
# Arithmetic in 64 bits

Points are computed step by step, and a step has no result if the exact one is out of range. Each step that has a
result has the exact one. Points that are added up without negative ones among them (`Points.sum?`) leave the range
on the way only if their sum is out of range: no partial sum is larger than the whole.
-/

namespace PerkGraph

namespace Points

/-! ## Steps -/

/-- The sum, if it is in range. -/
def add? (a b : Points) : Option Points :=
  ofInt? (a.val + b.val)

/-- The difference, if it is in range. -/
def sub? (a b : Points) : Option Points :=
  ofInt? (a.val - b.val)

/-- The product, if it is in range. -/
def mul? (a b : Points) : Option Points :=
  ofInt? (a.val * b.val)

/-- The quotient rounded toward zero, if there is one and it is in range. -/
def div? (a b : Points) : Option Points :=
  if b = zero then none else ofInt? (a.val.tdiv b.val)

/-- What the quotient rounded toward zero leaves over. Where there is no such quotient, nothing is. -/
def rem? (a b : Points) : Option Points :=
  (a.div? b).bind fun _ => ofInt? (a.val.tmod b.val)

/-- A number of 32 bits without sign as points. -/
def ofUInt32 (n : UInt32) : Points where
  val := n.toNat
  lower := by omega
  upper := by
    have := n.toNat_lt
    omega

@[simp] theorem val_ofUInt32 (n : UInt32) : (ofUInt32 n).val = n.toNat := rfl

theorem ofUInt32_eq_zero_iff {n : UInt32} : ofUInt32 n = zero ↔ n.toNat = 0 := by
  rw [Points.ext_iff, val_ofUInt32, val_zero, Int.natCast_eq_zero]

theorem sub?_eq_some_iff {a b c : Points} : a.sub? b = some c ↔ c.val = a.val - b.val :=
  ofInt?_eq_some_iff

theorem mul?_eq_some_iff {a b c : Points} : a.mul? b = some c ↔ c.val = a.val * b.val :=
  ofInt?_eq_some_iff

/-- Of what is not negative, rounding toward zero is rounding down. -/
theorem div?_eq_some_iff {a b c : Points} (ha : 0 ≤ a.val) :
    a.div? b = some c ↔ b ≠ zero ∧ c.val = a.val / b.val := by
  rw [div?, Option.ite_none_left_eq_some, ofInt?_eq_some_iff, Int.tdiv_eq_ediv_of_nonneg ha]

/-! ## Sums -/

/-- The number of points is this natural number. -/
def IsWorth (part : Points) (amount : Nat) : Prop :=
  part.val = amount

/-- The sum of a list, added up from the left. There is no result if a partial sum is out of range. -/
def sum? (parts : List Points) : Option Points :=
  parts.foldlM add? zero

theorem foldlM_add?_eq {parts : List Points} {amounts : List Nat}
    (h : List.Forall₂ IsWorth parts amounts) (start : Points)
    (hstart : 0 ≤ start.val) : parts.foldlM add? start = ofInt? (start.val + amounts.sum) := by
  induction h generalizing start with
  | nil =>
    rw [List.foldlM_nil, List.sum_nil, Int.natCast_zero, Int.add_zero, ofInt?_val]
    rfl
  | @cons part amount parts amounts hpart _ ih =>
    have hvalue : part.val = amount := hpart
    rw [List.foldlM_cons, List.sum_cons, Int.natCast_add, ← Int.add_assoc, ← hvalue]
    cases hadd : start.add? part with
    | some next =>
      have hnext : next.val = start.val + part.val := ofInt?_eq_some_iff.1 hadd
      rw [← hnext]
      exact ih next (by omega)
    | none =>
      -- what is added later does not bring the sum back into range
      have hout := ofInt?_eq_none_iff.1 hadd
      have hlower := part.lower
      symm
      apply ofInt?_eq_none_iff.2
      omega

theorem sum?_eq {parts : List Points} {amounts : List Nat}
    (h : List.Forall₂ IsWorth parts amounts) :
    sum? parts = ofInt? amounts.sum := by
  rw [sum?, foldlM_add?_eq h zero (Int.le_refl 0), val_zero, Int.zero_add]

end Points

end PerkGraph
