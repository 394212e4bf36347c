import PerkGraph.Pools

/-! # Prevention

Grit pays for damage and veil for risk, at a fixed price per point. As many points are prevented as there
are points to prevent and the resource can pay for; the resource's total stays as it was accumulated, and the
breakdown tells what is spent and what is left. No step leaves the range of points.
-/

namespace PerkGraph

/-- The price of preventing one point: grit for damage, veil for risk. -/
structure PreventionRatios where
  gritPerDamage : UInt32 := 2
  veilPerRisk : UInt32 := 2
deriving DecidableEq

/-- What was prevented, what it cost and what is left to pay with. -/
structure Prevention where
  damagePrevented : Points
  gritConsumed : Points
  gritRemaining : Points
  riskPrevented : Points
  veilConsumed : Points
  veilRemaining : Points
deriving DecidableEq

/-! ## One resource against one burden -/

/-- How many points of the burden the resource pays for. A price of 0 buys nothing. -/
def preventable (burden resource : Int) (price : Nat) : Int :=
  if burden ≤ 0 ∨ resource ≤ 0 ∨ price = 0 then 0 else min (resource / price) burden

theorem preventable_nonneg (burden resource : Int) (price : Nat) :
    0 ≤ preventable burden resource price := by
  unfold preventable
  split
  · exact Int.le_refl 0
  · have : 0 ≤ resource / (price : Int) := Int.ediv_nonneg (by omega) (by omega)
    omega

/-- No more is prevented than there is. -/
theorem preventable_le (burden resource : Int) (price : Nat) :
    preventable burden resource price ≤ max 0 burden := by
  unfold preventable
  split <;> omega

/-- No more is spent than there is. -/
theorem preventable_mul_le (burden resource : Int) (price : Nat) :
    preventable burden resource price * price ≤ max 0 resource := by
  unfold preventable
  split
  · omega
  · rename_i h
    have h1 : min (resource / (price : Int)) burden * price ≤ resource / (price : Int) * price :=
      Int.mul_le_mul_of_nonneg_right (by omega) (by omega)
    have h2 : resource / (price : Int) * price ≤ resource := Int.ediv_mul_le _ (by omega)
    omega

/-- What one resource prevents, spends, and leaves of the burden and of itself. -/
structure Offset where
  prevented : Points
  consumed : Points
  suffered : Points
  remaining : Points

/-- One resource against one burden. -/
def offset (burden resource : Points) (price : UInt32) : Offset :=
  have h0 := preventable_nonneg burden.val resource.val price.toNat
  have h1 := preventable_le burden.val resource.val price.toNat
  have h2 := preventable_mul_le burden.val resource.val price.toNat
  have h3 : 0 ≤ preventable burden.val resource.val price.toNat * (price.toNat : Int) :=
    Int.mul_nonneg h0 (by omega)
  have hb := burden.lower
  have hb' := burden.upper
  have hr := resource.lower
  have hr' := resource.upper
  { prevented := ⟨preventable burden.val resource.val price.toNat, by omega, by omega⟩
    consumed :=
      ⟨preventable burden.val resource.val price.toNat * price.toNat, by omega, by omega⟩
    suffered := ⟨burden.val - preventable burden.val resource.val price.toNat, by omega, by omega⟩
    remaining :=
      ⟨resource.val - preventable burden.val resource.val price.toNat * price.toNat, by omega,
        by omega⟩ }

/-! ## All pools -/

/-- The final totals, and how prevention led to them. -/
def Pools.prevent (pools : Pools) (ratios : PreventionRatios) : Pools × Prevention :=
  let damage := offset pools.damage pools.grit ratios.gritPerDamage
  let risk := offset pools.risk pools.veil ratios.veilPerRisk
  ({ pools with damage := damage.suffered, risk := risk.suffered },
    { damagePrevented := damage.prevented
      gritConsumed := damage.consumed
      gritRemaining := damage.remaining
      riskPrevented := risk.prevented
      veilConsumed := risk.consumed
      veilRemaining := risk.remaining })

end PerkGraph
