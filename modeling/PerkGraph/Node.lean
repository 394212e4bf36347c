import PerkGraph.Rule.Effect
import PerkGraph.Rule.Gate

/-! # Nodes

A node as stored data hands it over (`NodeRecord`) and as a contract keeps it (`Node`): rule texts
trimmed, and left out where they are blank. A rule text need not denote a rule; what it denotes is read when
it is asked for. Main statement: a node is rebuilt from its own record (`ofRecord_toRecord`).
-/

namespace PerkGraph

/-- A rule text worth keeping: trimmed and not empty. -/
structure RuleText where
  text : String
  trimmed : Text.trim text = text
  nonempty : text ≠ ""
deriving DecidableEq

/-- The trimmed text, unless nothing is left of it. -/
def RuleText.ofString? (raw : String) : Option RuleText :=
  if h : Text.trim raw ≠ "" then
    some { text := Text.trim raw, trimmed := Text.trim_trim raw, nonempty := h }
  else none

@[simp] theorem RuleText.ofString?_text (rule : RuleText) :
    RuleText.ofString? rule.text = some rule := by
  obtain ⟨text, trimmed, nonempty⟩ := rule
  simp [RuleText.ofString?, trimmed, nonempty]

/-- Which of a node's two effects is meant. -/
inductive SlotNumber where
  | first
  | second
deriving DecidableEq, Repr

def SlotNumber.toNat : SlotNumber → Nat
  | first => 1
  | second => 2

/-- An effect text in its slot. -/
structure EffectSlot where
  slot : SlotNumber
  raw : RuleText
deriving DecidableEq

/-- The effect that the text of a slot denotes. -/
def EffectSlot.effect (slot : EffectSlot) : Except EffectError Effect :=
  Effect.read slot.raw.text

structure NodeRecord where
  id : String := ""
  kind : NodeKind := .normal
  color : NodeColor := .grey
  effect1 : Option String := none
  effect2 : Option String := none
  gate : Option String := none
  connections : List String := []
deriving DecidableEq

structure Node where
  id : String
  kind : NodeKind
  color : NodeColor
  effect1 : Option RuleText
  effect2 : Option RuleText
  gate : Option RuleText
  /-- The ids that the outgoing edges lead to, as they were listed. -/
  connections : List String
deriving DecidableEq

namespace Node

def ofRecord (record : NodeRecord) : Node where
  id := record.id
  kind := record.kind
  color := record.color
  effect1 := record.effect1.bind RuleText.ofString?
  effect2 := record.effect2.bind RuleText.ofString?
  gate := record.gate.bind RuleText.ofString?
  connections := record.connections

def toRecord (node : Node) : NodeRecord where
  id := node.id
  kind := node.kind
  color := node.color
  effect1 := node.effect1.map RuleText.text
  effect2 := node.effect2.map RuleText.text
  gate := node.gate.map RuleText.text
  connections := node.connections

private theorem bind_map_text (rule : Option RuleText) :
    (rule.map RuleText.text).bind RuleText.ofString? = rule := by
  cases rule <;> simp

/-- A node is rebuilt from its own record. -/
@[simp] theorem ofRecord_toRecord (node : Node) : ofRecord node.toRecord = node := by
  simp [ofRecord, toRecord, bind_map_text]

/-- The effect texts of a node, in slot order. -/
def effects (node : Node) : List EffectSlot :=
  (node.effect1.map fun raw => { slot := .first, raw }).toList ++
    (node.effect2.map fun raw => { slot := .second, raw }).toList

theorem pairwise_effects (node : Node) :
    node.effects.Pairwise fun a b => a.slot.toNat < b.slot.toNat := by
  unfold effects
  cases node.effect1 <;> cases node.effect2 <;> simp [SlotNumber.toNat]

/-- What the gate text denotes, on whatever kind of node it stands. -/
def gateRule (node : Node) : Option (Except GateError GateRule) :=
  node.gate.map fun raw => GateRule.read raw.text

/-- What the gate text denotes where it counts: on a gate. -/
def activeGate (node : Node) : Option (Except GateError GateRule) :=
  if node.kind = .gate then node.gateRule else none

end Node

end PerkGraph
