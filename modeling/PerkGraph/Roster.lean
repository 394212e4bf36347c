import PerkGraph.Runner
import PerkGraph.Text.Numeral

/-! # Rosters

The team: three slots, each with a runner, nobody included. A roster is filled from assignments of
runners to slots; a slot that does not exist or is assigned twice is refused.
-/

namespace PerkGraph

/-- How many slots a roster has. -/
def rosterSlots : Nat := 3

/-- A runner and the number of the slot it is meant for, which may not exist. -/
structure Assignment where
  slot : Nat := 0
  runner : Runner := .nobody
deriving DecidableEq

inductive RosterError where
  | slotOutOfRange (slot : Nat)
  | duplicateSlot (slot : Nat)
deriving DecidableEq

def RosterError.message : RosterError → String
  | slotOutOfRange slot =>
    "runner slot " ++ Text.showNat slot ++ " out of range (0.." ++ Text.showNat rosterSlots ++ ")"
  | duplicateSlot slot => "duplicate runner slot " ++ Text.showNat slot

/-- The team, by slot. -/
structure Roster where
  runners : Vector Runner rosterSlots
deriving DecidableEq

namespace Roster

def empty : Roster where
  runners := Vector.replicate rosterSlots .nobody

instance : Inhabited Roster := ⟨empty⟩

/-- The roster with another runner in one slot. -/
def set (roster : Roster) (assignment : Assignment) : Except RosterError Roster :=
  if h : assignment.slot < rosterSlots then
    .ok { runners := roster.runners.set assignment.slot assignment.runner h }
  else .error (.slotOutOfRange assignment.slot)

/-- Sets assignments one by one, none of them in a slot taken before. -/
def fill : List Assignment → (taken : List Nat) → Roster → Except RosterError Roster
  | [], _, roster => .ok roster
  | assignment :: rest, taken, roster => do
    let next ← roster.set assignment
    if assignment.slot ∈ taken then .error (.duplicateSlot assignment.slot)
    else fill rest (assignment.slot :: taken) next

/-- The roster of a list of assignments, with nobody in the slots it leaves out. -/
def ofList (assignments : List Assignment) : Except RosterError Roster :=
  fill assignments [] empty

/-- Every slot with its runner, in slot order. -/
def toList (roster : Roster) : List Assignment :=
  (List.finRange rosterSlots).map fun slot : Fin rosterSlots =>
    { slot := slot.val, runner := roster.runners.get slot }

/-- The runners that fill their slots, in slot order. -/
def active (roster : Roster) : List Runner :=
  roster.runners.toList.filter Runner.isActive

def hasType (roster : Roster) (type : RunnerType) : Bool :=
  roster.active.any fun runner => runner.type = type

/-- The sum of a stat over the runners that fill their slots. -/
def total (roster : Roster) (stat : RunnerStat) : Nat :=
  roster.active.foldr (fun runner sum => (runner.stat stat).toNat + sum) 0

end Roster

end PerkGraph
