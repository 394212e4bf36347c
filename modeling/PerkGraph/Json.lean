/-! # JSON values

The tree of a JSON text. Any text has one: where it stops being JSON the tree has the leaf `garbled`, and
the containers open at that place end with it. Whoever walks the tree in the order of the text therefore meets
what was wrong first exactly where it stands. Numbers are kept exact: a whole number as such, and a number
with a fraction, an exponent or a signed zero as its literal.
-/

namespace PerkGraph

/-- The tree of a JSON text. -/
inductive Json where
  | null
  | bool (value : Bool)
  | integer (value : Int)
  /-- A number that is not written as a plain whole number. -/
  | decimal (literal : String)
  | string (value : String)
  /-- A string whose escapes name half of a surrogate pair: it is JSON, but denotes no text. -/
  | loneSurrogate
  | array (items : List Json)
  /-- The fields in the order of the text, repeated ones included. A key without a text is `none`. -/
  | object (fields : List (Option String × Json))
  /-- Here the text is not JSON. -/
  | garbled
deriving Inhabited

namespace Json

/-- An object with the given fields. -/
def record (fields : List (String × Json)) : Json :=
  .object (fields.map fun field => (some field.1, field.2))

def strings (texts : List String) : Json :=
  .array (texts.map .string)

def nat (n : Nat) : Json :=
  .integer n

mutual

/-- All of the tree is JSON. -/
def isSound : Json → Bool
  | .garbled => false
  | .array items => areSound items
  | .object fields => fieldsAreSound fields
  | _ => true

def areSound : List Json → Bool
  | [] => true
  | item :: rest => isSound item && areSound rest

def fieldsAreSound : List (Option String × Json) → Bool
  | [] => true
  | (_, value) :: rest => isSound value && fieldsAreSound rest

end

end Json

end PerkGraph
