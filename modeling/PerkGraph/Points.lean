import PerkGraph.Text.Numeral

/-! # Points

The quantity that every pool holds: a whole number that fits in 64 bits with sign. Arithmetic on points
is done on whole numbers, and only a result in range becomes points again; nothing wraps around.
-/

namespace PerkGraph

/-- A whole number from -2^63 to 2^63 - 1. -/
structure Points where
  val : Int
  lower : -0x8000000000000000 ≤ val := by decide
  upper : val < 0x8000000000000000 := by decide
deriving DecidableEq

namespace Points

/-- No points at all, the start of every pool. -/
def zero : Points := { val := 0 }

instance : Inhabited Points := ⟨zero⟩

@[ext] theorem ext {a b : Points} (h : a.val = b.val) : a = b := by
  cases a; cases b; cases h; rfl

@[simp] theorem val_zero : zero.val = 0 := rfl

/-- The whole number as points, if it is in range. -/
def ofInt? (n : Int) : Option Points :=
  if h : -0x8000000000000000 ≤ n ∧ n < 0x8000000000000000 then
    some { val := n, lower := h.1, upper := h.2 }
  else none

theorem ofInt?_eq_some_iff {n : Int} {p : Points} : ofInt? n = some p ↔ p.val = n := by
  unfold ofInt?
  split
  · rename_i h
    simp only [Option.some.injEq]
    exact ⟨fun hp => hp ▸ rfl, fun hp => Points.ext hp.symm⟩
  · rename_i h
    simp only [reduceCtorEq, false_iff]
    rintro rfl
    exact h ⟨p.lower, p.upper⟩

theorem ofInt?_eq_none_iff {n : Int} :
    ofInt? n = none ↔ n < -0x8000000000000000 ∨ 0x8000000000000000 ≤ n := by
  unfold ofInt?
  split
  · rename_i h
    simp only [reduceCtorEq, false_iff]
    omega
  · rename_i h
    simp only [true_iff]
    omega

@[simp] theorem ofInt?_val (p : Points) : ofInt? p.val = some p :=
  ofInt?_eq_some_iff.2 rfl

/-- The points that a signed decimal numeral denotes. -/
def read? (s : String) : Option Points :=
  (Text.readInt? s).bind ofInt?

/-- The numeral of a number of points. -/
def numeral (p : Points) : String :=
  Text.showInt p.val

@[simp] theorem read?_numeral (p : Points) : read? p.numeral = some p := by
  simp [read?, numeral]

end Points

end PerkGraph
