import PerkGraph.Json
import PerkGraph.Text.Numeral

/-! # Printing JSON

The text of a tree: one item or field a line, two blanks of indentation for each container around it, and
empty containers on one line. Strings escape the quotation mark, the backslash and control characters only.
-/

namespace PerkGraph.Json

/-- The digit of a value below 16, in lower case. -/
def hexDigit (value : Nat) : Char :=
  Nat.digitChar value

/-- A character of a string as it is written. -/
def escape (c : Char) : List Char :=
  if c = '"' then ['\\', '"']
  else if c = '\\' then ['\\', '\\']
  else if c = '\n' then ['\\', 'n']
  else if c = '\t' then ['\\', 't']
  else if c = '\r' then ['\\', 'r']
  else if c = '\x08' then ['\\', 'b']
  else if c = '\x0c' then ['\\', 'f']
  else if c.toNat < 0x20 then
    ['\\', 'u', '0', '0', hexDigit (c.toNat / 16), hexDigit (c.toNat % 16)]
  else [c]

/-- A string with its quotation marks. -/
def quote (s : String) : List Char :=
  '"' :: s.toList.flatMap escape ++ ['"']

/-- A new line at the given depth. -/
def newline (depth : Nat) : List Char :=
  '\n' :: List.replicate (2 * depth) ' '

mutual

/-- The characters of a tree at the given depth. A leaf without a text is left out. -/
def chars (depth : Nat) : Json → List Char
  | .null => ['n', 'u', 'l', 'l']
  | .bool true => ['t', 'r', 'u', 'e']
  | .bool false => ['f', 'a', 'l', 's', 'e']
  | .integer value => (Text.showInt value).toList
  | .decimal literal => literal.toList
  | .string value => quote value
  | .array [] => ['[', ']']
  | .array (item :: rest) =>
    '[' :: newline (depth + 1) ++ chars (depth + 1) item ++ itemChars (depth + 1) rest ++
      newline depth ++ [']']
  | .object [] => ['{', '}']
  | .object ((key, value) :: rest) =>
    '{' :: newline (depth + 1) ++ quote (key.getD "") ++ ':' :: ' ' :: chars (depth + 1) value ++
      fieldChars (depth + 1) rest ++ newline depth ++ ['}']
  | .loneSurrogate | .garbled => []

def itemChars (depth : Nat) : List Json → List Char
  | [] => []
  | item :: rest => ',' :: newline depth ++ chars depth item ++ itemChars depth rest

def fieldChars (depth : Nat) : List (Option String × Json) → List Char
  | [] => []
  | (key, value) :: rest =>
    ',' :: newline depth ++ quote (key.getD "") ++ ':' :: ' ' :: chars depth value ++
      fieldChars depth rest

end

def print (json : Json) : String :=
  String.ofList (chars 0 json)

/-- The text of a tree, ended by a newline. -/
def printLine (json : Json) : String :=
  json.print ++ "\n"

end PerkGraph.Json
