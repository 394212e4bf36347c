import PerkGraph.Text.Numeral
import PerkGraph.Toml

/-! # TOML scalars

What the unquoted values of a document denote: booleans, whole numbers in four bases, numbers with a fraction,
dates and times. More texts pass for whole numbers than denote one (`passesForInteger`); these have no value.
-/

namespace PerkGraph.Toml

/-! ## Digits with separators -/

/-- Every underscore stands between two digits. -/
def isSeparated (isDigit : Char → Bool) : List Char → Bool
  | [] => true
  | '_' :: _ | [_, '_'] => false
  | c :: '_' :: d :: rest => isDigit c && isDigit d && isSeparated isDigit (d :: rest)
  | _ :: rest => isSeparated isDigit rest

/-- Digits with at most one underscore between neighbours, without the underscores. -/
def separated? (isDigit : Char → Bool) (cs : List Char) : Option (List Char) :=
  let digits := cs.filter fun c => c != '_'
  if digits ≠ [] ∧ digits.all isDigit ∧ isSeparated isDigit cs then some digits else none

def baseDigit (c : Char) : Nat :=
  if c.isDigit then c.toNat - '0'.toNat else c.toLower.toNat - 'a'.toNat + 10

def isBaseDigit (base : Nat) (c : Char) : Bool :=
  (c.isDigit || ('a' ≤ c.toLower && c.toLower ≤ 'f')) && baseDigit c < base

/-- The natural number that digits of a base denote. -/
def natInBase? (base : Nat) (cs : List Char) : Option Nat :=
  (separated? (isBaseDigit base) cs).map fun digits =>
    digits.foldl (fun n c => base * n + baseDigit c) 0

/-! ## Numbers -/

/-- A text without the sign in front of it, and whether the sign is a minus. -/
def unsign : List Char → Bool × List Char
  | '-' :: rest => (true, rest)
  | '+' :: rest => (false, rest)
  | cs => (false, cs)

/-- A natural number with a sign. -/
def signed (negative : Bool) (n : Nat) : Int :=
  if negative then -(n : Int) else n

/-- Decimal digits without a zero in front of others, the separators left out. -/
def decimalDigits? (cs : List Char) : Option (List Char) :=
  match cs with
  | '0' :: _ :: _ => none
  | _ => separated? Char.isDigit cs

/-- A whole number of any size. Only a decimal one has a sign. -/
def unboundedInteger? : List Char → Option Int
  | '0' :: 'x' :: rest => (natInBase? 16 rest).map fun n : Nat => (n : Int)
  | '0' :: 'o' :: rest => (natInBase? 8 rest).map fun n : Nat => (n : Int)
  | '0' :: 'b' :: rest => (natInBase? 2 rest).map fun n : Nat => (n : Int)
  | cs =>
    let (negative, digits) := unsign cs
    (decimalDigits? digits).map fun digits => signed negative (Text.digitsValue digits)

/-- A text without a sign passes for a decimal whole number although it need not denote one. It begins with
digits, the first of them no zero, up to an underscore. Any characters may follow, tabs too, as long as every
underscore stands between two digits of any base up to 16; but a dot or an `e` makes it a number with a
fraction or an exponent, and a space no number at all. -/
def passesForDecimal (cs : List Char) : Bool :=
  cs.head? ≠ some '0' && '_' ∈ cs && (cs.takeWhile fun c => c != '_').all Char.isDigit &&
    isSeparated (isBaseDigit 16) cs &&
    cs.all fun c => c != '.' && c != 'e' && c != 'E' && c != ' '

/-- A text passes for a whole number although it need not denote one. A base does without its digits. -/
def passesForInteger (cs : List Char) : Bool :=
  cs = ['0', 'x'] || cs = ['0', 'o'] || cs = ['0', 'b'] || passesForDecimal (unsign cs).2

/-- The value of a whole number, if it fits in 128 bits with or without a sign. -/
def ofInteger (n : Int) : Toml :=
  if -0x80000000000000000000000000000000 ≤ n ∧ n < 0x100000000000000000000000000000000 then
    .integer n
  else .unreadable

/-- The two parts of a text around its first exponent mark. -/
def cutExponent (cs : List Char) : List Char × Option (List Char) :=
  let isMark := fun c : Char => c == 'e' || c == 'E'
  match cs.dropWhile fun c => !isMark c with
  | [] => (cs, none)
  | _ :: exponent => (cs.takeWhile fun c => !isMark c, some exponent)

/-- Decimal digits, and the exponent of the power of ten that multiplies them. -/
structure Scientific where
  digits : List Char
  exponent : Int

/-- The exponent that follows an exponent mark. It may have a sign and leading zeros. -/
def exponent? (cs : List Char) : Option Int :=
  let (negative, digits) := unsign cs
  (separated? Char.isDigit digits).map fun digits => signed negative (Text.digitsValue digits)

/-- A decimal number without a sign, with or without a fraction and an exponent. -/
def scientific? (cs : List Char) : Option Scientific := do
  let (mantissa, mark) := cutExponent cs
  let whole ← decimalDigits? (mantissa.takeWhile fun c => c != '.')
  let fraction ← match mantissa.dropWhile fun c => c != '.' with
    | [] => some []
    | _ :: fraction => separated? Char.isDigit fraction
  let exponent ← match mark with
    | none => some 0
    | some cs => exponent? cs
  return { digits := whole ++ fraction, exponent := exponent - fraction.length }

/-- The least number that is rounded to infinity: 54 binary ones, and 970 zeros after them. It has 309 decimal
digits. -/
def roundsToInfinity : Nat := 0x3FFFFFFFFFFFFF <<< 970

/-- The number is at least as large as the least one that is rounded to infinity. The place of its first digit other
than zero decides unless it is the same for both. -/
def Scientific.isHuge (number : Scientific) : Bool :=
  let digits := number.digits.dropWhile fun c => c == '0'
  let place := digits.length + number.exponent
  if digits = [] ∨ place < 309 then false
  else if 309 < place then true
  else
    roundsToInfinity * Nat.pow 10 (-number.exponent).toNat ≤
      Text.digitsValue digits * Nat.pow 10 number.exponent.toNat

/-- A number with a fraction, an exponent or both, or one of the words `inf` and `nan`. -/
def float? (cs : List Char) : Option Toml :=
  let unsigned := (unsign cs).2
  if unsigned = ['i', 'n', 'f'] ∨ unsigned = ['n', 'a', 'n'] then some .float
  else
    (scientific? unsigned).map fun number => if number.isHuge then .unreadable else .float

/-! ## Dates and times -/

/-- A number written with exactly the given count of digits. -/
def fixed? (count : Nat) (cs : List Char) : Option Nat :=
  if cs.length = count ∧ cs.all Char.isDigit then some (Text.digitsValue cs) else none

/-- How many days a month has. -/
def daysIn (year month : Nat) : Nat :=
  if month = 2 then
    if year % 4 = 0 ∧ (year % 100 ≠ 0 ∨ year % 400 = 0) then 29 else 28
  else if month = 4 ∨ month = 6 ∨ month = 9 ∨ month = 11 then 30
  else 31

/-- A date of the calendar. -/
def isDate : List Char → Bool
  | [y1, y2, y3, y4, '-', m1, m2, '-', d1, d2] =>
    match fixed? 4 [y1, y2, y3, y4], fixed? 2 [m1, m2], fixed? 2 [d1, d2] with
    | some year, some month, some day =>
      1 ≤ month && month ≤ 12 && 1 ≤ day && day ≤ daysIn year month
    | _, _, _ => false
  | _ => false

/-- Hours and minutes of a day. -/
def isHourMinute : List Char → Bool
  | [h1, h2, ':', m1, m2] =>
    match fixed? 2 [h1, h2], fixed? 2 [m1, m2] with
    | some hour, some minute => hour < 24 && minute < 60
    | _, _ => false
  | _ => false

/-- Seconds, which may have a fraction. A leap second is possible. -/
def isSecond (cs : List Char) : Bool :=
  (fixed? 2 (cs.take 2)).any (· ≤ 60) &&
    match cs.drop 2 with
    | [] => true
    | '.' :: fraction => !fraction.isEmpty && fraction.all Char.isDigit
    | _ => false

/-- A time of day; the seconds may be missing. -/
def isTime (cs : List Char) : Bool :=
  isHourMinute (cs.take 5) &&
    match cs.drop 5 with
    | [] => true
    | ':' :: seconds => isSecond seconds
    | _ => false

/-- A time of day, with or without an offset from universal time. -/
def isOffsetTime (cs : List Char) : Bool :=
  let isOffsetMark := fun c : Char => c == 'Z' || c == 'z' || c == '+' || c == '-'
  isTime (cs.takeWhile fun c => !isOffsetMark c) &&
    match cs.dropWhile fun c => !isOffsetMark c with
    | [] | ['Z'] | ['z'] => true
    | c :: offset => (c == '+' || c == '-') && isHourMinute offset

/-- A date, a time of day, or both. -/
def isDatetime (cs : List Char) : Bool :=
  isTime cs || isDate cs ||
    (isDate (cs.take 10) &&
      match cs.drop 10 with
      | c :: time => (c == 'T' || c == 't' || c == ' ') && isOffsetTime time
      | [] => false)

/-- The value that an unquoted text denotes. -/
def scalar? (cs : List Char) : Option Toml :=
  if cs = ['t', 'r', 'u', 'e'] then some (.boolean true)
  else if cs = ['f', 'a', 'l', 's', 'e'] then some (.boolean false)
  else
    match unboundedInteger? cs, float? cs with
    | some n, _ => some (ofInteger n)
    | none, some value => some value
    | none, none =>
      if isDatetime cs then some .datetime
      else if passesForInteger cs then some .unreadable
      else none

end PerkGraph.Toml
