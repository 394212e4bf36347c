import PerkGraph.Points
import PerkGraph.Vocabulary

/-! # Pools

The five pools of a contract and their totals. Main statements: writing one pool shows in that pool
(`get_set_self`) and in no other (`get_set_ne`).
-/

namespace PerkGraph

/-- One of the five pools. -/
inductive Stat where
  | damage
  | risk
  | money
  | grit
  | veil
deriving DecidableEq, Repr

instance : Vocabulary Stat where
  all := [.damage, .risk, .money, .grit, .veil]
  name
    | .damage => "Damage"
    | .risk => "Risk"
    | .money => "Money"
    | .grit => "Grit"
    | .veil => "Veil"

structure Pools where
  damage : Points := .zero
  risk : Points := .zero
  money : Points := .zero
  grit : Points := .zero
  veil : Points := .zero
deriving DecidableEq

namespace Pools

def zero : Pools := {}

def get (pools : Pools) : Stat → Points
  | .damage => pools.damage
  | .risk => pools.risk
  | .money => pools.money
  | .grit => pools.grit
  | .veil => pools.veil

def set (pools : Pools) (stat : Stat) (total : Points) : Pools :=
  match stat with
  | .damage => { pools with damage := total }
  | .risk => { pools with risk := total }
  | .money => { pools with money := total }
  | .grit => { pools with grit := total }
  | .veil => { pools with veil := total }

@[simp] theorem get_zero (stat : Stat) : zero.get stat = .zero := by
  cases stat <;> rfl

@[simp] theorem get_set_self (pools : Pools) (stat : Stat) (total : Points) :
    (pools.set stat total).get stat = total := by
  cases stat <;> rfl

theorem get_set_ne (pools : Pools) {stat other : Stat} (total : Points) (h : other ≠ stat) :
    (pools.set stat total).get other = pools.get other := by
  cases stat <;> cases other <;> first | rfl | exact absurd rfl h

end Pools

end PerkGraph
