import PerkGraph.Vocabulary

/-! # Kinds, colors and ids of nodes

The words that describe a node, and the texts that may name one.
-/

namespace PerkGraph

inductive NodeKind where
  | normal
  | synergy
  | start
  | finish
  | gate
deriving DecidableEq, Repr

instance : Vocabulary NodeKind where
  all := [.normal, .synergy, .start, .finish, .gate]
  name
    | .normal => "Normal"
    | .synergy => "Synergy"
    | .start => "Start"
    | .finish => "End"
    | .gate => "Gate"

/-- The color of a node. Grey may also be spelled Gray. -/
inductive NodeColor where
  | red
  | yellow
  | green
  | blue
  | purple
  | grey
deriving DecidableEq, Repr

instance : Vocabulary NodeColor where
  all := [.red, .yellow, .green, .blue, .purple, .grey]
  name
    | .red => "Red"
    | .yellow => "Yellow"
    | .green => "Green"
    | .blue => "Blue"
    | .purple => "Purple"
    | .grey => "Grey"
  aliases
    | .grey => ["Gray"]
    | _ => []

/-- The characters of node ids: ASCII letters and digits, the underscore and the hyphen. -/
def isIdChar (c : Char) : Bool :=
  c.isAlphanum || c == '_' || c == '-'

/-- A text that may name a node: at least one character, all of them id characters. -/
def isNodeId (s : String) : Bool :=
  !s.toList.isEmpty && s.toList.all isIdChar

end PerkGraph
