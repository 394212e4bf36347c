/-! # TOML tokens

Splits a document into tokens, one character at a time: the lexeme under way is the state. Strings come out
decoded; words, numbers and dates are atoms, whose meaning depends on where they stand. A dot is a token of
its own, and blanks are kept, for they separate atoms. The first character that fits nowhere ends the tokens
with `garbled`.
-/

namespace PerkGraph.Toml

/-- A token of a document. -/
inductive Token where
  | dot
  | equals
  | comma
  | openBracket
  | closeBracket
  | openBrace
  | closeBrace
  | space
  | tab
  | newline
  | atom (text : String)
  /-- A string on one line. -/
  | string (value : String)
  /-- A string between triple quotation marks. -/
  | block (value : String)
  | garbled
deriving DecidableEq

/-- A space or a tab. -/
def Token.isBlank (token : Token) : Bool :=
  token = .space || token = .tab

/-- Which quotation mark encloses a string, and whether three of them do. -/
structure Quoting where
  mark : Char
  triple : Bool

/-- Only the double quotation mark lets a backslash escape. -/
def Quoting.escapes (quoting : Quoting) : Bool :=
  quoting.mark == '"'

def Quoting.token (quoting : Quoting) (content : List Char) : Token :=
  let value := String.ofList content.reverse
  if quoting.triple then .block value else .string value

/-- The lexeme under way; what it holds is in reverse. -/
inductive Lexing where
  | between
  | atom (text : List Char)
  | comment
  /-- After a carriage return, which only a line feed may follow. -/
  | carriage
  /-- After one or two quotation marks that may begin a string. -/
  | opening (mark : Char) (two : Bool)
  /-- Just after three quotation marks: a line break here does not count. -/
  | fresh (mark : Char)
  /-- After a carriage return just after three quotation marks. -/
  | freshCarriage (mark : Char)
  | inside (quoting : Quoting) (content : List Char)
  /-- After a carriage return in a string. -/
  | insideCarriage (quoting : Quoting) (content : List Char)
  /-- After some quotation marks in a string between triple ones. -/
  | closing (mark : Char) (content : List Char) (count : Nat)
  /-- After a backslash. -/
  | escape (quoting : Quoting) (content : List Char)
  /-- In the digits of an escape: how many are to come and the value so far. -/
  | unit (quoting : Quoting) (content : List Char) (left value : Nat)
  /-- After a backslash at the end of a line, in the blanks that it swallows. -/
  | swallow (quoting : Quoting) (content : List Char) (broken : Bool)
  /-- After a carriage return among these blanks. -/
  | swallowCarriage (quoting : Quoting) (content : List Char)

/-- A character of bare keys. -/
def isBareChar (c : Char) : Bool :=
  c.isAlphanum || c == '_' || c == '-'

/-- A control character that no comment and no string may hold as it is. -/
def isControl (c : Char) : Bool :=
  (c.toNat < 0x20 && c != '\t') || c.toNat == 0x7F

def punctuation? : Char → Option Token
  | '.' => some .dot
  | '=' => some .equals
  | ',' => some .comma
  | '[' => some .openBracket
  | ']' => some .closeBracket
  | '{' => some .openBrace
  | '}' => some .closeBrace
  | ' ' => some .space
  | '\t' => some .tab
  | '\n' => some .newline
  | _ => none

/-- What a character between lexemes does. -/
def begin (c : Char) : List Token × Lexing :=
  match punctuation? c with
  | some token => ([token], .between)
  | none =>
    if c == '#' then ([], .comment)
    else if c == '\r' then ([], .carriage)
    else if c == '"' || c == '\'' then ([], .opening c false)
    else ([], .atom [c])

def hexValue? (c : Char) : Option Nat :=
  if c.isDigit then some (c.toNat - '0'.toNat)
  else if 'a' ≤ c ∧ c ≤ 'f' then some (c.toNat - 'a'.toNat + 10)
  else if 'A' ≤ c ∧ c ≤ 'F' then some (c.toNat - 'A'.toNat + 10)
  else none

/-- The character that a one-letter escape stands for. -/
def escaped? : Char → Option Char
  | 'b' => some '\x08'
  | 't' => some '\t'
  | 'n' => some '\n'
  | 'f' => some '\x0c'
  | 'r' => some '\r'
  | 'e' => some '\x1b'
  | '"' => some '"'
  | '\\' => some '\\'
  | _ => none

/-- How many digits an escape with a number has. -/
def unitLength? : Char → Option Nat
  | 'x' => some 2
  | 'u' => some 4
  | 'U' => some 8
  | _ => none

/-- There is a character with this number. -/
def isScalar (value : Nat) : Bool :=
  value < 0xD800 || (0xDFFF < value && value < 0x110000)

namespace Lexing

/-- What a character of a string does. -/
def insideNext? (quoting : Quoting) (content : List Char) (c : Char) :
    Option (List Token × Lexing) :=
  if c == quoting.mark then
    if quoting.triple then some ([], .closing c content 1)
    else some ([quoting.token content], .between)
  else if c == '\\' && quoting.escapes then some ([], .escape quoting content)
  else if c == '\n' && quoting.triple then some ([], .inside quoting (c :: content))
  else if c == '\r' && quoting.triple then some ([], .insideCarriage quoting content)
  else if isControl c then none
  else some ([], .inside quoting (c :: content))

/-- What a character after a backslash does. -/
def escapeNext? (quoting : Quoting) (content : List Char) (c : Char) :
    Option (List Token × Lexing) :=
  match escaped? c, unitLength? c with
  | some meant, _ => some ([], .inside quoting (meant :: content))
  | none, some left => some ([], .unit quoting content left 0)
  | none, none =>
    if !quoting.triple then none
    else if c == ' ' || c == '\t' then some ([], .swallow quoting content false)
    else if c == '\r' then some ([], .swallowCarriage quoting content)
    else if c == '\n' then some ([], .swallow quoting content true)
    else none

/-- The content of a string after an escape with a number, if that is the number of a character. -/
def unitEnd? (quoting : Quoting) (content : List Char) (value : Nat) : Option (List Token × Lexing) :=
  if isScalar value then some ([], .inside quoting (Char.ofNat value :: content)) else none

/-- What a character does to the lexeme under way: the tokens it completes and the lexeme that goes on, if
it fits at all. -/
def next? (lexing : Lexing) (c : Char) : Option (List Token × Lexing) :=
  match lexing with
  | .between => some (begin c)
  | .atom text =>
    match (punctuation? c).isSome || c == '#' || c == '\r' with
    | true =>
      let (tokens, next) := begin c
      some (Token.atom (String.ofList text.reverse) :: tokens, next)
    | false => some ([], .atom (c :: text))
  | .comment =>
    if c == '\n' then some ([.newline], .between)
    else if c == '\r' then some ([], .carriage)
    else if isControl c then none
    else some ([], .comment)
  | .carriage => if c == '\n' then some ([.newline], .between) else none
  | .opening mark two =>
    if c == mark then
      if two then some ([], .fresh mark) else some ([], .opening mark true)
    else if two then
      let (tokens, next) := begin c
      some (Token.string "" :: tokens, next)
    else insideNext? { mark, triple := false } [] c
  | .fresh mark =>
    if c == '\n' then some ([], .inside { mark, triple := true } [])
    else if c == '\r' then some ([], .freshCarriage mark)
    else insideNext? { mark, triple := true } [] c
  | .freshCarriage mark =>
    if c == '\n' then some ([], .inside { mark, triple := true } []) else none
  | .inside quoting content => insideNext? quoting content c
  | .insideCarriage quoting content =>
    if c == '\n' then some ([], .inside quoting (c :: content)) else none
  | .closing mark content count =>
    if c == mark && count < 5 then some ([], .closing mark content (count + 1))
    else if count < 3 then
      insideNext? { mark, triple := true } (List.replicate count mark ++ content) c
    else
      let (tokens, next) := begin c
      let content := List.replicate (count - 3) mark ++ content
      some (Quoting.token { mark, triple := true } content :: tokens, next)
  | .escape quoting content => escapeNext? quoting content c
  | .unit quoting content left value =>
    match hexValue? c with
    | none => none
    | some digit =>
      if left = 1 then unitEnd? quoting content (value * 16 + digit)
      else some ([], .unit quoting content (left - 1) (value * 16 + digit))
  | .swallow quoting content broken =>
    if c == ' ' || c == '\t' then some ([], .swallow quoting content broken)
    else if c == '\r' then some ([], .swallowCarriage quoting content)
    else if c == '\n' then some ([], .swallow quoting content true)
    else if broken then insideNext? quoting content c
    else none
  | .swallowCarriage quoting content =>
    if c == '\n' then some ([], .swallow quoting content true) else none

/-- The tokens that the end of the document completes. -/
def finish : Lexing → List Token
  | .between | .comment => []
  | .atom text => [.atom (String.ofList text.reverse)]
  | .opening _ true => [.string ""]
  | .closing mark content count =>
    if count < 3 then [.garbled]
    else [Quoting.token { mark, triple := true } (List.replicate (count - 3) mark ++ content)]
  | _ => [.garbled]

end Lexing

/-- The tokens of a document, from a lexeme under way. -/
def scan : Lexing → List Char → List Token
  | lexing, [] => lexing.finish
  | lexing, c :: rest =>
    match lexing.next? c with
    | some (tokens, next) => tokens ++ scan next rest
    | none => [.garbled]

/-- The tokens of a document. A byte order mark in front is no part of it. -/
def tokens (text : String) : List Token :=
  match text.toList with
  | '\uFEFF' :: rest => scan .between rest
  | cs => scan .between cs

end PerkGraph.Toml
