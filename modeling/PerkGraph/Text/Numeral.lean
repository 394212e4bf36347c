/-! # Numerals

Decimal numerals: how a whole number is written, and which texts are read as one. Main statement:
a number is read back from its own numeral (`readInt?_showInt`), although other texts, with a plus sign
or leading zeros, name it too.
-/

namespace PerkGraph.Text

/-! ## Digits -/

/-- The value of a decimal digit. -/
def digitValue (c : Char) : Nat :=
  c.toNat - '0'.toNat

/-- The decimal digits of a number, without leading zeros. -/
def digits (n : Nat) : List Char :=
  if n < 10 then [Nat.digitChar n] else digits (n / 10) ++ [Nat.digitChar (n % 10)]

/-- The number that digits denote, most significant first. -/
def digitsValue (cs : List Char) : Nat :=
  cs.foldl (fun n c => 10 * n + digitValue c) 0

theorem digitsValue_append_singleton (cs : List Char) (c : Char) :
    digitsValue (cs ++ [c]) = 10 * digitsValue cs + digitValue c := by
  simp [digitsValue, List.foldl_append]

theorem isDigit_digitChar {d : Nat} (h : d < 10) : (Nat.digitChar d).isDigit = true := by
  have : d = 0 ∨ d = 1 ∨ d = 2 ∨ d = 3 ∨ d = 4 ∨ d = 5 ∨ d = 6 ∨ d = 7 ∨ d = 8 ∨ d = 9 := by omega
  rcases this with rfl | rfl | rfl | rfl | rfl | rfl | rfl | rfl | rfl | rfl <;> decide

theorem digitValue_digitChar {d : Nat} (h : d < 10) : digitValue (Nat.digitChar d) = d := by
  have : d = 0 ∨ d = 1 ∨ d = 2 ∨ d = 3 ∨ d = 4 ∨ d = 5 ∨ d = 6 ∨ d = 7 ∨ d = 8 ∨ d = 9 := by omega
  rcases this with rfl | rfl | rfl | rfl | rfl | rfl | rfl | rfl | rfl | rfl <;> decide

theorem digits_ne_nil (n : Nat) : digits n ≠ [] := by
  rw [digits]
  split <;> simp

theorem isDigit_of_mem_digits (n : Nat) : ∀ c ∈ digits n, c.isDigit = true := by
  induction n using Nat.strongRecOn with
  | ind n ih =>
    intro c hc
    rw [digits] at hc
    split at hc
    · rename_i h
      simp only [List.mem_singleton] at hc
      exact hc ▸ isDigit_digitChar h
    · rename_i h
      rcases List.mem_append.1 hc with hc | hc
      · exact ih (n / 10) (by omega) c hc
      · simp only [List.mem_singleton] at hc
        exact hc ▸ isDigit_digitChar (Nat.mod_lt _ (by omega))

/-- A positive number does not begin with a zero. -/
theorem digits_eq_cons {n : Nat} (h : 0 < n) : ∃ c rest, digits n = c :: rest ∧ c ≠ '0' := by
  induction n using Nat.strongRecOn with
  | ind n ih =>
    rw [digits]
    split
    · rename_i hlt
      refine ⟨Nat.digitChar n, [], rfl, fun hzero => ?_⟩
      have hvalue := digitValue_digitChar hlt
      rw [hzero] at hvalue
      exact absurd hvalue (Nat.ne_of_lt h)
    · obtain ⟨c, rest, hdigits, hc⟩ := ih (n / 10) (by omega) (by omega)
      exact ⟨c, rest ++ [Nat.digitChar (n % 10)], by rw [hdigits, List.cons_append], hc⟩

theorem digitsValue_digits (n : Nat) : digitsValue (digits n) = n := by
  induction n using Nat.strongRecOn with
  | ind n ih =>
    rw [digits]
    split
    · rename_i h
      simp [digitsValue, digitValue_digitChar h]
    · rw [digitsValue_append_singleton, ih (n / 10) (by omega),
        digitValue_digitChar (Nat.mod_lt _ (by omega))]
      omega

/-! ## Reading -/

/-- A natural number in decimal digits, at least one; no sign. -/
def natOfChars? (cs : List Char) : Option Nat :=
  if cs ≠ [] ∧ cs.all Char.isDigit then some (digitsValue cs) else none

/-- A whole number in decimal digits with at most one sign in front. -/
def intOfChars? : List Char → Option Int
  | '-' :: cs => (natOfChars? cs).map fun n : Nat => -(n : Int)
  | '+' :: cs => (natOfChars? cs).map fun n : Nat => (n : Int)
  | cs => (natOfChars? cs).map fun n : Nat => (n : Int)

/-- The whole number that a text denotes. -/
def readInt? (s : String) : Option Int :=
  intOfChars? s.toList

/-! ## Writing -/

/-- The numeral of a natural number. -/
def showNat (n : Nat) : String :=
  String.ofList (digits n)

/-- The numeral of a whole number: a minus sign if it is negative, never a plus sign. -/
def showInt (n : Int) : String :=
  if n < 0 then String.ofList ('-' :: digits n.natAbs) else showNat n.natAbs

theorem natOfChars?_digits (n : Nat) : natOfChars? (digits n) = some n := by
  simp only [natOfChars?, digitsValue_digits]
  rw [if_pos ⟨digits_ne_nil n, List.all_eq_true.2 (isDigit_of_mem_digits n)⟩]

/-- An unsigned numeral is read as such. -/
theorem intOfChars?_of_isDigit {cs : List Char} (h : ∀ c ∈ cs, c.isDigit = true) :
    intOfChars? cs = (natOfChars? cs).map fun n : Nat => (n : Int) := by
  cases cs with
  | nil => rfl
  | cons c rest =>
    have hc := h c List.mem_cons_self
    unfold intOfChars?
    split
    · simp_all
    · simp_all
    · rfl

@[simp] theorem readInt?_showInt (n : Int) : readInt? (showInt n) = some n := by
  rw [readInt?, showInt]
  split
  · rename_i h
    rw [String.toList_ofList, intOfChars?, natOfChars?_digits, Option.map_some]
    exact congrArg some (by omega)
  · rename_i h
    rw [showNat, String.toList_ofList, intOfChars?_of_isDigit (isDigit_of_mem_digits _),
      natOfChars?_digits, Option.map_some]
    exact congrArg some (by omega)

end PerkGraph.Text
