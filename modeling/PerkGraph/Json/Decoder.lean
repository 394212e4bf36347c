import PerkGraph.Json
import PerkGraph.Points
import PerkGraph.Vocabulary

/-! # Decoding JSON

From trees to values. A record is an object, or an array of its fields in the order of their declaration;
unknown fields of an object are skipped, a repeated known field is a fault. Fields are decoded in the order
of the tree, so the first fault in the text is the one reported.
-/

namespace PerkGraph.Json

/-- Why a tree does not decode: it does not have the form, or it has the form but its content is refused. -/
inductive Fault (ε : Type) where
  | malformed
  | refused (reason : ε)
deriving DecidableEq

variable {ε σ α : Type}

/-! ## Leaves -/

def text : Json → Except (Fault ε) String
  | .string value => .ok value
  | _ => .error .malformed

def natBelow (bound : Nat) : Json → Except (Fault ε) Nat
  | .integer value => if 0 ≤ value ∧ value < bound then .ok value.toNat else .error .malformed
  | _ => .error .malformed

def word32 (json : Json) : Except (Fault ε) UInt32 :=
  (natBelow 0x100000000 json).map UInt32.ofNat

def points : Json → Except (Fault ε) Points
  | .integer value => (Points.ofInt? value).elim (.error .malformed) .ok
  | _ => .error .malformed

/-- A word of a vocabulary: its name, or an object with the name as its only key and `null` behind it. -/
def word [Vocabulary α] : Json → Except (Fault ε) α
  | .string name | .object [(some name, .null)] =>
    (Vocabulary.named? name).elim (.error .malformed) .ok
  | _ => .error .malformed

/-- A value that may be missing, `null` standing for a missing one. -/
def optional (decode : Json → Except (Fault ε) α) : Json → Except (Fault ε) (Option α)
  | .null => .ok none
  | json => (decode json).map some

def list (decode : Json → Except (Fault ε) α) : Json → Except (Fault ε) (List α)
  | .array items => items.mapM decode
  | _ => .error .malformed

/-! ## Records -/

/-- Lets the known fields of an object change a state, in the order of the object. -/
def takeFields (names : List String) (take : String → Json → σ → Except (Fault ε) σ) :
    List (Option String × Json) → (seen : List String) → σ → Except (Fault ε) σ
  | [], _, state => .ok state
  | (none, _) :: _, _, _ => .error .malformed
  | (some key, value) :: rest, seen, state =>
    if key ∈ names then
      if key ∈ seen then .error .malformed
      else do
        let next ← take key value state
        takeFields names take rest (key :: seen) next
    else if value.isSound then takeFields names take rest seen state
    else .error .malformed

/-- Lets the items of an array change a state, each as the field whose name stands in its place. -/
def takeItems (take : String → Json → σ → Except (Fault ε) σ) :
    List String → List Json → σ → Except (Fault ε) σ
  | _, [], state => .ok state
  | [], _ :: _, _ => .error .malformed
  | name :: names, item :: rest, state => do
    let next ← take name item state
    takeItems take names rest next

/-- Decodes a record with the given fields, starting from what it is without any. -/
def fields (names : List String) (take : String → Json → σ → Except (Fault ε) σ) (start : σ) :
    Json → Except (Fault ε) σ
  | .object given => takeFields names take given [] start
  | .array items => takeItems take names items start
  | _ => .error .malformed

/-! ## Documents -/

/-- Decodes a document. Text after the value is a fault, but one that comes last. -/
def decodeWhole (value : Json) (complete : Bool) (decode : Json → Except (Fault ε) α) :
    Except (Fault ε) α := do
  let result ← decode value
  if complete then .ok result else .error .malformed

end PerkGraph.Json
