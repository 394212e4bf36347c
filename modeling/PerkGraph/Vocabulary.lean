import PerkGraph.Text.Blank
import PerkGraph.Text.Fields

/-! # Vocabularies

Small closed sets of words that contract data spells out: pools, runner types, colors, operators. A
vocabulary lists its words in their canonical order and names each of them. Rule texts name a word in any
letter case and with blanks around it (`Vocabulary.read?`); stored data names it exactly (`Vocabulary.named?`).
-/

namespace PerkGraph

/-- A closed set of words with their names, in canonical order. -/
class Vocabulary (α : Type) where
  /-- Every word, in canonical order. -/
  all : List α
  /-- The name under which a word is written. -/
  name : α → String
  /-- Further names under which a word is read. -/
  aliases : α → List String := fun _ => []

namespace Vocabulary

variable {α : Type} [Vocabulary α]

/-- Every name under which a word is read. -/
def spellings (a : α) : List String :=
  name a :: aliases a

/-- The word that a text names, in any letter case and with blanks around it. -/
def read? (s : String) : Option α :=
  all.find? fun a => (spellings a).any fun spelling => Text.sameLetters spelling (Text.trim s)

/-- The word that a text names, letter for letter. -/
def named? (s : String) : Option α :=
  all.find? fun a => (spellings a).any fun spelling => spelling == s

/-- The words of a list, once each and in canonical order. -/
def inOrder [DecidableEq α] (words : List α) : List α :=
  all.filter fun a => a ∈ words

@[simp] theorem inOrder_inOrder [DecidableEq α] (words : List α) :
    inOrder (inOrder words) = inOrder words := by
  unfold inOrder
  apply List.filter_congr
  intro a ha
  simp [ha]

end Vocabulary

end PerkGraph
