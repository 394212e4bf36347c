import PerkGraph.Text.Numeral

/-! # JSON tokens

Splits a text into JSON tokens, one character at a time: the lexeme under way is the state. The first
character that fits nowhere ends the tokens with `garbled`. Strings come out decoded, numbers exact.
-/

namespace PerkGraph.Json

/-- A token of a JSON text. -/
inductive Token where
  | openObject
  | closeObject
  | openArray
  | closeArray
  | colon
  | comma
  | null
  | bool (value : Bool)
  | integer (value : Int)
  | decimal (literal : String)
  | string (value : String)
  | loneSurrogate
  | garbled
deriving DecidableEq

/-! ## Strings -/

/-- What one character or escape of a string stands for. -/
inductive StringPart where
  | char (c : Char)
  /-- Half of a surrogate pair. -/
  | half (unit : Nat)
deriving DecidableEq

namespace StringPart

/-- The part that a 16-bit unit stands for. -/
def ofUnit (unit : Nat) : StringPart :=
  if 0xD800 ≤ unit ∧ unit ≤ 0xDFFF then half unit else char (Char.ofNat unit)

/-- The characters of a string, unless half of a surrogate pair stands alone in it. -/
def assemble? : List StringPart → Option (List Char)
  | [] => some []
  | char c :: rest => (assemble? rest).map (c :: ·)
  | half high :: half low :: rest =>
    if high < 0xDC00 ∧ 0xDC00 ≤ low then
      (assemble? rest).map (Char.ofNat (0x10000 + (high - 0xD800) * 0x400 + (low - 0xDC00)) :: ·)
    else none
  | half _ :: _ => none

end StringPart

/-- The character that a one-letter escape stands for. -/
def escaped? : Char → Option Char
  | '"' => some '"'
  | '\\' => some '\\'
  | '/' => some '/'
  | 'b' => some '\x08'
  | 'f' => some '\x0c'
  | 'n' => some '\n'
  | 'r' => some '\r'
  | 't' => some '\t'
  | _ => none

def hexValue? (c : Char) : Option Nat :=
  if c.isDigit then some (c.toNat - '0'.toNat)
  else if 'a' ≤ c ∧ c ≤ 'f' then some (c.toNat - 'a'.toNat + 10)
  else if 'A' ≤ c ∧ c ≤ 'F' then some (c.toNat - 'A'.toNat + 10)
  else none

def stringToken (parts : List StringPart) : Token :=
  match StringPart.assemble? parts with
  | some cs => .string (String.ofList cs)
  | none => .loneSurrogate

/-! ## Numbers and words -/

/-- An exponent mark with its digits. -/
def isExponent : List Char → Bool
  | c :: rest =>
    (c == 'e' || c == 'E') &&
      match rest with
      | '+' :: digits | '-' :: digits => !digits.isEmpty && digits.all Char.isDigit
      | digits => !digits.isEmpty && digits.all Char.isDigit
  | [] => false

/-- What may follow the whole part of a number: a fraction, an exponent, or both. -/
def isNumberTail : List Char → Bool
  | '.' :: rest =>
    let digits := rest.takeWhile Char.isDigit
    let exponent := rest.dropWhile Char.isDigit
    !digits.isEmpty && (exponent.isEmpty || isExponent exponent)
  | rest => isExponent rest

/-- The digits of the whole part of a number: at least one, and no zero in front of others. -/
def isWholePart : List Char → Bool
  | [] => false
  | ['0'] => true
  | c :: _ => c != '0'

def numberToken (lexeme : List Char) : Token :=
  let unsigned := match lexeme with
    | '-' :: rest => rest
    | _ => lexeme
  let whole := unsigned.takeWhile Char.isDigit
  let tail := unsigned.dropWhile Char.isDigit
  if !isWholePart whole then .garbled
  else if tail.isEmpty then
    if lexeme = ['-', '0'] then .decimal "-0"
    else
      match Text.intOfChars? lexeme with
      | some value => .integer value
      | none => .garbled
  else if isNumberTail tail then .decimal (String.ofList lexeme)
  else .garbled

def wordToken (lexeme : List Char) : Token :=
  if lexeme = ['n', 'u', 'l', 'l'] then .null
  else if lexeme = ['t', 'r', 'u', 'e'] then .bool true
  else if lexeme = ['f', 'a', 'l', 's', 'e'] then .bool false
  else .garbled

/-! ## Scanning -/

/-- The lexeme under way; what it holds is in reverse. -/
inductive Lexing where
  | between
  | word (lexeme : List Char)
  | number (lexeme : List Char)
  | string (parts : List StringPart)
  /-- After a backslash. -/
  | escape (parts : List StringPart)
  /-- After `\u`: the digits seen and their value. -/
  | unit (parts : List StringPart) (count value : Nat)

/-- The white space between tokens. -/
def isSpace (c : Char) : Bool :=
  c == ' ' || c == '\n' || c == '\t' || c == '\r'

/-- A character that a number may go on with. -/
def isNumberChar (c : Char) : Bool :=
  c.isDigit || c == '-' || c == '+' || c == '.' || c == 'e' || c == 'E'

def punctuation? : Char → Option Token
  | '{' => some .openObject
  | '}' => some .closeObject
  | '[' => some .openArray
  | ']' => some .closeArray
  | ':' => some .colon
  | ',' => some .comma
  | _ => none

/-- What a character between lexemes does: the tokens it gives and the lexeme it begins, if it fits at
all. -/
def begin? (c : Char) : Option (List Token × Lexing) :=
  if isSpace c then some ([], .between)
  else
    match punctuation? c with
    | some token => some ([token], .between)
    | none =>
      if c == '"' then some ([], .string [])
      else if c.isDigit || c == '-' then some ([], .number [c])
      else if c.isLower then some ([], .word [c])
      else none

/-- What a character does to the lexeme under way: the tokens it completes and the lexeme that goes on, if
it fits at all. -/
def Lexing.next? (lexing : Lexing) (c : Char) : Option (List Token × Lexing) :=
  match lexing with
  | .between => begin? c
  | .word lexeme =>
    if c.isLower then some ([], .word (c :: lexeme))
    else (begin? c).map fun next => (wordToken lexeme.reverse :: next.1, next.2)
  | .number lexeme =>
    if isNumberChar c then some ([], .number (c :: lexeme))
    else (begin? c).map fun next => (numberToken lexeme.reverse :: next.1, next.2)
  | .string parts =>
    if c == '"' then some ([stringToken parts.reverse], .between)
    else if c == '\\' then some ([], .escape parts)
    else if c.toNat < 0x20 then none
    else some ([], .string (.char c :: parts))
  | .escape parts =>
    if c == 'u' then some ([], .unit parts 0 0)
    else (escaped? c).map fun meant => ([], .string (.char meant :: parts))
  | .unit parts count value =>
    (hexValue? c).map fun digit =>
      if count = 3 then ([], .string (.ofUnit (value * 16 + digit) :: parts))
      else ([], .unit parts (count + 1) (value * 16 + digit))

/-- The tokens that the end of the text completes. -/
def Lexing.finish : Lexing → List Token
  | .between => []
  | .word lexeme => [wordToken lexeme.reverse]
  | .number lexeme => [numberToken lexeme.reverse]
  | .string _ | .escape _ | .unit _ _ _ => [.garbled]

/-- The token of the lexeme that a misfit breaks off. -/
def Lexing.breakOff : Lexing → List Token
  | .word lexeme => [wordToken lexeme.reverse, .garbled]
  | .number lexeme => [numberToken lexeme.reverse, .garbled]
  | _ => [.garbled]

/-- The tokens of a text, from a lexeme under way. -/
def scan : Lexing → List Char → List Token
  | lexing, [] => lexing.finish
  | lexing, c :: rest =>
    match lexing.next? c with
    | some (tokens, next) => tokens ++ scan next rest
    | none => lexing.breakOff

/-- The tokens of a text. -/
def tokens (text : String) : List Token :=
  scan .between text.toList

end PerkGraph.Json
