import PerkGraph.Toml.Scalar
import PerkGraph.Toml.Table
import PerkGraph.Toml.Token

/-! # Reading TOML

From the tokens of a document to its statements, and from these to one table. Values are read by recursion
on a bound of twice the number of tokens and one: of two calls in a row at least one takes a token. The length
of dotted keys is limited, and so is the depth of arrays and inline tables.
-/

namespace PerkGraph.Toml

/-! ## Keys -/

/-- A key without dots. -/
def Token.key? : Token → Option String
  | .atom text => if text.toList.all isBareChar then some text else none
  | .string value => some value
  | _ => none

/-- The keys between dots. -/
def path? : List Token → Option (List String)
  | [token] => token.key?.map fun key => [key]
  | token :: .dot :: rest => do return (← token.key?) :: (← path? rest)
  | _ => none

/-- Leaves out the blanks next to dots. -/
def dropAroundDots : List Token → List Token
  | [] => []
  | .dot :: rest => .dot :: (dropAroundDots rest).dropWhile Token.isBlank
  | token :: rest =>
    match token.isBlank, dropAroundDots rest with
    | true, .dot :: after => .dot :: after
    | _, after => token :: after

/-- How many parts a dotted key may have. -/
def keyLimit : Nat := 80

/-- A dotted key, blanks around its parts left out. -/
def dottedKey? (tokens : List Token) : Option (List String) :=
  let trimmed := (tokens.dropWhile Token.isBlank).reverse.dropWhile Token.isBlank
  (path? (dropAroundDots trimmed.reverse)).filter fun path => path.length ≤ keyLimit

/-! ## Values -/

/-- The characters of a token that may be part of an unquoted value. -/
def Token.scalarChars? : Token → Option (List Char)
  | .atom text => some text.toList
  | .dot => some ['.']
  | .space => some [' ']
  | .tab => some ['\t']
  | _ => none

/-- The characters of an unquoted value at the front, and the tokens after it. There may be blanks in it, as
between a date and a time, but none at its end. -/
def scalarFront : List Token → List Char × List Token
  | [] => ([], [])
  | token :: rest =>
    match token.scalarChars? with
    | none => ([], token :: rest)
    | some cs =>
      let (others, after) := scalarFront rest
      if token.isBlank && others.isEmpty then ([], token :: rest) else (cs ++ others, after)

/-- An unquoted value. -/
def scalarValue? (tokens : List Token) : Option (Toml × List Token) :=
  let (cs, after) := scalarFront tokens
  (scalar? cs).map fun value => (value, after)

/-- The tokens after blanks and line breaks. -/
def skipBreaks (tokens : List Token) : List Token :=
  tokens.dropWhile fun token => token.isBlank || token = .newline

/-- The tokens after blanks. -/
def skipBlanks (tokens : List Token) : List Token :=
  tokens.dropWhile Token.isBlank

/-- The dotted key in front of an equals sign, and the tokens after the sign. `skip` passes over what may
stand on both sides of the sign. -/
def keyEquals? (skip : List Token → List Token) (tokens : List Token) :
    Option (List String × List Token) := do
  let front := tokens.takeWhile (· ≠ .equals)
  let path ← dottedKey? (skip front.reverse).reverse
  match tokens.dropWhile (· ≠ .equals) with
  | _ :: rest => return (path, skip rest)
  | [] => none

/-- How deep arrays and inline tables may be nested. -/
def nestingLimit : Nat := 80

mutual

/-- The value at the front, and the tokens after it. It may be nested as deep as `room` says. -/
def value? : (bound room : Nat) → List Token → Option (Toml × List Token)
  | 0, _, _ => none
  | bound + 1, room, tokens =>
    match tokens, room with
    | .string value :: rest, _ | .block value :: rest, _ => some (.string value, rest)
    | .openBracket :: _, 0 | .openBrace :: _, 0 => none
    | .openBracket :: rest, room + 1 => items? bound room (skipBreaks rest) []
    | .openBrace :: rest, room + 1 => pairs? bound room (skipBreaks rest) []
    | _, _ => scalarValue? tokens

/-- The items of an array up to its closing bracket, after those already read. -/
def items? : (bound room : Nat) → List Token → List Toml → Option (Toml × List Token)
  | 0, _, _, _ => none
  | bound + 1, room, tokens, done =>
    match tokens with
    | .closeBracket :: rest => some (.array done.reverse, rest)
    | _ => do
      let (item, rest) ← value? bound room tokens
      match skipBreaks rest with
      | .closeBracket :: rest => some (.array (item :: done).reverse, rest)
      | .comma :: rest => items? bound room (skipBreaks rest) (item :: done)
      | _ => none

/-- The fields of an inline table up to its closing brace, after those already read. Line breaks may stand
anywhere in it but inside a dotted key. -/
def pairs? : (bound room : Nat) → List Token → Fields → Option (Toml × List Token)
  | 0, _, _, _ => none
  | bound + 1, room, tokens, done =>
    match tokens with
    | .closeBrace :: rest => some (.table (fieldsToToml done), rest)
    | _ => do
      let (path, rest) ← keyEquals? skipBreaks tokens
      let (value, rest) ← value? bound room rest
      let done ← done.assign? path value
      match skipBreaks rest with
      | .closeBrace :: rest => some (.table (fieldsToToml done), rest)
      | .comma :: rest => pairs? bound room (skipBreaks rest) done
      | _ => none

end

/-! ## Statements -/

/-- A statement of a document. -/
inductive Statement where
  | header (path : List String)
  | arrayHeader (path : List String)
  | assign (path : List String) (value : Toml)

/-- The dotted key in front of a closing bracket, and the tokens after the bracket. -/
def headerKey? (tokens : List Token) : Option (List String × List Token) := do
  let path ← dottedKey? (tokens.takeWhile (· ≠ .closeBracket))
  match tokens.dropWhile (· ≠ .closeBracket) with
  | _ :: rest => return (path, rest)
  | [] => none

/-- The statement at the front, and the tokens after it. -/
def statement? (tokens : List Token) : Option (Statement × List Token) :=
  match tokens with
  | .openBracket :: .openBracket :: rest =>
    match headerKey? rest with
    | some (path, .closeBracket :: rest) => some (.arrayHeader path, rest)
    | _ => none
  | .openBracket :: rest => (headerKey? rest).map fun found => (.header found.1, found.2)
  | _ => do
    let (path, rest) ← keyEquals? skipBlanks tokens
    let (value, rest) ← value? (2 * rest.length + 1) nestingLimit rest
    return (.assign path value, rest)

/-- The statements of a document, each ended by a line break or by the end. -/
def statements? : (bound : Nat) → List Token → Option (List Statement)
  | 0, tokens => if skipBreaks tokens = [] then some [] else none
  | bound + 1, tokens =>
    match skipBreaks tokens with
    | [] => some []
    | tokens => do
      let (statement, rest) ← statement? tokens
      match skipBlanks rest with
      | [] => some [statement]
      | .newline :: rest => return statement :: (← statements? bound rest)
      | _ => none

/-! ## Documents -/

/-- Carries out statements on a table, assignments in the table that the last header named. -/
def build? : List Statement → (current : List String) → Fields → Option Fields
  | [], _, fields => some fields
  | .header path :: rest, _, fields => do
    let key ← path.getLast?
    let fields ← fields.descend? path.dropLast fun inner => inner.define? key
    build? rest path fields
  | .arrayHeader path :: rest, _, fields => do
    let key ← path.getLast?
    let fields ← fields.descend? path.dropLast fun inner => inner.extend? key
    build? rest path fields
  | .assign path value :: rest, current, fields => do
    let fields ← fields.descend? current fun inner => inner.assign? path value
    build? rest current fields

/-- The table of a document, if it is one. -/
def read? (text : String) : Option (List (String × Toml)) := do
  let tokens := tokens text
  let statements ← statements? tokens.length tokens
  let fields ← build? statements [] []
  return fieldsToToml fields

end PerkGraph.Toml
