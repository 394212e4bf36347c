/-! # TOML values

The tree of a TOML document. Numbers with a fraction, dates and times are told apart from other values, but
what they denote is not kept: nothing that is configured here is one.
-/

namespace PerkGraph

/-- The tree of a TOML document. -/
inductive Toml where
  | string (value : String)
  /-- A whole number that fits in 128 bits, with or without a sign. -/
  | integer (value : Int)
  | float
  /-- A text that passes for a number but has no value: too large for its kind, or with other characters than
  digits in it. It is refused only where its value is looked at. -/
  | unreadable
  | boolean (value : Bool)
  | datetime
  | array (items : List Toml)
  /-- Keys in the order in which they first appear. -/
  | table (fields : List (String × Toml))
deriving Inhabited

namespace Toml

mutual

/-- All numbers of the tree have a value. -/
def isReadable : Toml → Bool
  | .unreadable => false
  | .array items => areReadable items
  | .table fields => fieldsReadable fields
  | .string _ | .integer _ | .float | .boolean _ | .datetime => true

def areReadable : List Toml → Bool
  | [] => true
  | item :: rest => item.isReadable && areReadable rest

def fieldsReadable : List (String × Toml) → Bool
  | [] => true
  | (_, value) :: rest => value.isReadable && fieldsReadable rest

end

end Toml

end PerkGraph
