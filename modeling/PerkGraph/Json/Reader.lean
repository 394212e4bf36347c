import PerkGraph.Json
import PerkGraph.Json.Token

/-! # Reading JSON

Puts tokens together to a tree. The containers part way through are kept in a list, innermost first. A
token that does not fit closes them all, with `garbled` where it stands.
-/

namespace PerkGraph.Json

/-- A container part way through; what it holds is in reverse. -/
inductive Frame where
  | items (done : List Json)
  /-- The value of `key` is under way. -/
  | fields (done : List (Option String × Json)) (key : Option String)

/-- What may come next. -/
inductive Reading where
  | beforeValue (stack : List Frame)
  /-- Just after an opening bracket: a value or the closing one. -/
  | beforeFirstItem (stack : List Frame)
  /-- Just after an opening brace: a key or the closing one. -/
  | beforeFirstKey (stack : List Frame)
  | beforeKey (done : List (Option String × Json)) (stack : List Frame)
  | beforeColon (done : List (Option String × Json)) (key : Option String) (stack : List Frame)
  | afterItem (done : List Json) (stack : List Frame)
  | afterField (done : List (Option String × Json)) (stack : List Frame)
  | finished (value : Json)

/-- A text as a tree, and whether all of the text belongs to it. -/
structure Document where
  value : Json
  complete : Bool

namespace Reading

/-- Hands a finished value to the innermost container. -/
def complete (value : Json) : List Frame → Reading
  | [] => finished value
  | .items done :: stack => afterItem (value :: done) stack
  | .fields done key :: stack => afterField ((key, value) :: done) stack

/-- Begins the value that a token stands for or opens. -/
def beginValue? (stack : List Frame) : Token → Option Reading
  | .null => some (complete .null stack)
  | .bool value => some (complete (.bool value) stack)
  | .integer value => some (complete (.integer value) stack)
  | .decimal literal => some (complete (.decimal literal) stack)
  | .string value => some (complete (.string value) stack)
  | .loneSurrogate => some (complete .loneSurrogate stack)
  | .openArray => some (beforeFirstItem stack)
  | .openObject => some (beforeFirstKey stack)
  | _ => none

/-- The key that a token stands for. -/
def beginKey? (done : List (Option String × Json)) (stack : List Frame) : Token → Option Reading
  | .string key => some (beforeColon done (some key) stack)
  | .loneSurrogate => some (beforeColon done none stack)
  | _ => none

def next? : Reading → Token → Option Reading
  | beforeValue stack, token => beginValue? stack token
  | beforeFirstItem stack, .closeArray => some (complete (.array []) stack)
  | beforeFirstItem stack, token => beginValue? (.items [] :: stack) token
  | beforeFirstKey stack, .closeObject => some (complete (.object []) stack)
  | beforeFirstKey stack, token => beginKey? [] stack token
  | beforeKey done stack, token => beginKey? done stack token
  | beforeColon done key stack, .colon => some (beforeValue (.fields done key :: stack))
  | afterItem done stack, .comma => some (beforeValue (.items done :: stack))
  | afterItem done stack, .closeArray => some (complete (.array done.reverse) stack)
  | afterField done stack, .comma => some (beforeKey done stack)
  | afterField done stack, .closeObject => some (complete (.object done.reverse) stack)
  | _, _ => none

/-- Closes all containers around a value. -/
def close (value : Json) : List Frame → Json
  | [] => value
  | .items done :: stack => close (.array (value :: done).reverse) stack
  | .fields done key :: stack => close (.object ((key, value) :: done).reverse) stack

/-- The tree of what has been read, if nothing fits any more. -/
def giveUp : Reading → Json
  | beforeValue stack => close .garbled stack
  | beforeFirstItem stack => close (.array [.garbled]) stack
  | beforeFirstKey stack => close (.object [(none, .garbled)]) stack
  | beforeKey done stack => close (.object ((none, .garbled) :: done).reverse) stack
  | beforeColon done key stack => close (.object ((key, .garbled) :: done).reverse) stack
  | afterItem done stack => close (.array (.garbled :: done).reverse) stack
  | afterField done stack => close (.object ((none, .garbled) :: done).reverse) stack
  | finished value => value

/-- The document at the end of the text. -/
def finish : Reading → Document
  | finished value => { value, complete := true }
  | reading => { value := reading.giveUp, complete := false }

/-- The document of the tokens to come. -/
def run : Reading → List Token → Document
  | reading, [] => reading.finish
  | reading, token :: rest =>
    match reading.next? token with
    | some next => run next rest
    | none => { value := reading.giveUp, complete := false }

end Reading

def read (text : String) : Document :=
  Reading.run (.beforeValue []) (tokens text)

end PerkGraph.Json
