import PerkGraph.Prevention
import PerkGraph.Proofs.CheckedPoints

/-!
# The most that prevention can do

One resource against one burden prevents the largest amount that is there to be prevented and that the
resource pays for; what is prevented and what is suffered make up the burden, and what is spent and what is
left make up the resource (`Offset.IsBest`). Damage and risk are two such bargains that know nothing of each
other (`Pools.prevent_isBest`). All of it can be done in steps of 64 bits, and of these none divides by zero or
leaves the range (`Pools.prevent?_eq`), although nothing bounds the pools or the prices: what is bought costs
no more than there is to pay with.
-/

namespace PerkGraph

/-! ## Steps in 64 bits -/

/-- What is prevented and what it costs, step by step. There is no result if a step has none. -/
def offset? (burden resource : Points) (price : UInt32) : Option (Points × Points) :=
  if burden.val ≤ 0 ∨ resource.val ≤ 0 ∨ price.toNat = 0 then some (.zero, .zero)
  else do
    let payable ← resource.div? (.ofUInt32 price)
    let prevented := if payable.val ≤ burden.val then payable else burden
    let consumed ← prevented.mul? (.ofUInt32 price)
    return (prevented, consumed)

/-- The final totals and the breakdown, step by step. There is no result if a step has none. -/
def Pools.prevent? (pools : Pools) (ratios : PreventionRatios) : Option (Pools × Prevention) := do
  let (damagePrevented, gritConsumed) ← offset? pools.damage pools.grit ratios.gritPerDamage
  let (riskPrevented, veilConsumed) ← offset? pools.risk pools.veil ratios.veilPerRisk
  let gritRemaining ← pools.grit.sub? gritConsumed
  let veilRemaining ← pools.veil.sub? veilConsumed
  let damage ← pools.damage.sub? damagePrevented
  let risk ← pools.risk.sub? riskPrevented
  return ({ pools with damage, risk },
    { damagePrevented, gritConsumed, gritRemaining, riskPrevented, veilConsumed, veilRemaining })

section Steps

variable (burden resource : Points) (price : UInt32)

theorem offset?_eq :
    offset? burden resource price =
      some ((offset burden resource price).prevented, (offset burden resource price).consumed) := by
  have hprevented : (offset burden resource price).prevented.val =
      preventable burden.val resource.val price.toNat := rfl
  have hconsumed : (offset burden resource price).consumed.val =
      (offset burden resource price).prevented.val * price.toNat := rfl
  unfold offset?
  split
  · rename_i hidle
    have hnone : (offset burden resource price).prevented = .zero :=
      Points.ext (hprevented.trans (if_pos hidle))
    have hfree : (offset burden resource price).consumed = .zero :=
      Points.ext (by rw [hconsumed, hnone, Points.val_zero, Int.zero_mul])
    rw [hnone, hfree]
  · rename_i hbusy
    have hmin : (offset burden resource price).prevented.val =
        min (resource.val / (price.toNat : Int)) burden.val := hprevented.trans (if_neg hbusy)
    simp only [not_or, Int.not_le] at hbusy
    obtain ⟨-, hresource, hprice⟩ := hbusy
    have hquotient : 0 ≤ resource.val / (price.toNat : Int) := Int.ediv_nonneg (by omega) (by omega)
    have hbound : resource.val / (price.toNat : Int) ≤ resource.val := Int.ediv_le_self _ (by omega)
    -- the quotient is in range, being no larger than the resource
    obtain ⟨payable, hpayable⟩ : ∃ payable : Points, payable.val = resource.val / (price.toNat : Int) :=
      ⟨⟨_, by omega, by have := resource.upper; omega⟩, rfl⟩
    have hdiv : resource.div? (.ofUInt32 price) = some payable :=
      (Points.div?_eq_some_iff (by omega)).2
        ⟨fun h => hprice (Points.ofUInt32_eq_zero_iff.1 h), hpayable⟩
    have hsmaller : (if payable.val ≤ burden.val then payable else burden) =
        (offset burden resource price).prevented := by
      apply Points.ext
      split <;> omega
    have hmul : (offset burden resource price).prevented.mul? (.ofUInt32 price) =
        some (offset burden resource price).consumed := Points.mul?_eq_some_iff.2 hconsumed
    simp only [hdiv, Option.bind_eq_bind, Option.bind_some, hsmaller, hmul, Option.pure_def]

theorem sub?_consumed :
    resource.sub? (offset burden resource price).consumed =
      some (offset burden resource price).remaining :=
  Points.sub?_eq_some_iff.2 rfl

theorem sub?_prevented :
    burden.sub? (offset burden resource price).prevented =
      some (offset burden resource price).suffered :=
  Points.sub?_eq_some_iff.2 rfl

/-- No step is without a result. -/
theorem Pools.prevent?_eq (pools : Pools) (ratios : PreventionRatios) :
    pools.prevent? ratios = some (pools.prevent ratios) := by
  simp only [prevent?, offset?_eq, sub?_consumed, sub?_prevented, Option.bind_eq_bind,
    Option.bind_some, Option.pure_def]
  rfl

end Steps

/-! ## The best bargain -/

/-- So much can be prevented: there is as much of the burden, and the resource pays for it. -/
def IsPayable (burden resource : Points) (price : UInt32) (amount : Int) : Prop :=
  0 ≤ amount ∧ amount ≤ max 0 burden.val ∧ amount * price.toNat ≤ max 0 resource.val

/-- One resource does the most it can against one burden, and nothing is lost or made up. -/
structure Offset.IsBest (burden resource : Points) (price : UInt32) (offset : Offset) : Prop where
  payable : IsPayable burden resource price offset.prevented.val
  greatest : 0 < price.toNat → ∀ amount, IsPayable burden resource price amount →
    amount ≤ offset.prevented.val
  /-- A price of 0 buys nothing. -/
  nothing : price.toNat = 0 → offset.prevented.val = 0
  consumed_eq : offset.consumed.val = offset.prevented.val * price.toNat
  burden_eq : offset.suffered.val + offset.prevented.val = burden.val
  resource_eq : offset.remaining.val + offset.consumed.val = resource.val
  suffered_nonneg : 0 < burden.val → 0 ≤ offset.suffered.val
  untouched : burden.val ≤ 0 ∨ resource.val ≤ 0 →
    offset.suffered = burden ∧ offset.remaining = resource

theorem le_preventable {burden resource : Points} {price : UInt32} {amount : Int}
    (hprice : 0 < price.toNat) (h : IsPayable burden resource price amount) :
    amount ≤ preventable burden.val resource.val price.toNat := by
  obtain ⟨hamount, hburden, hresource⟩ := h
  unfold preventable
  split
  · rename_i hidle
    rcases hidle with hnone | hpoor | hfree
    · omega
    · -- a positive amount would cost something
      have hcost : amount * (1 : Int) ≤ amount * price.toNat :=
        Int.mul_le_mul_of_nonneg_left (by omega) hamount
      omega
    · omega
  · have hquotient : amount ≤ resource.val / (price.toNat : Int) :=
      Int.le_ediv_of_mul_le (by omega) (by omega)
    omega

theorem offset_isBest (burden resource : Points) (price : UInt32) :
    (offset burden resource price).IsBest burden resource price := by
  have hprevented : (offset burden resource price).prevented.val =
      preventable burden.val resource.val price.toNat := rfl
  have hconsumed : (offset burden resource price).consumed.val =
      preventable burden.val resource.val price.toNat * price.toNat := rfl
  have hsuffered : (offset burden resource price).suffered.val =
      burden.val - preventable burden.val resource.val price.toNat := rfl
  have hremaining : (offset burden resource price).remaining.val =
      resource.val - preventable burden.val resource.val price.toNat * price.toNat := rfl
  have hle := preventable_le burden.val resource.val price.toNat
  refine ⟨⟨preventable_nonneg _ _ _, hle, preventable_mul_le _ _ _⟩,
    fun hprice amount h => le_preventable hprice h, fun hprice => if_pos (.inr (.inr hprice)),
    hconsumed, by omega, by omega, fun h => by omega, fun h => ?_⟩
  have hnone : preventable burden.val resource.val price.toNat = 0 :=
    if_pos (h.imp_right Or.inl)
  rw [hnone] at hsuffered hremaining
  exact ⟨Points.ext (by omega), Points.ext (by omega)⟩

/-! ## The main statement -/

namespace Pools

/-- What grit does against damage. -/
def damageOffset (pools : Pools) (ratios : PreventionRatios) : Offset :=
  let (final, prevention) := pools.prevent ratios
  { prevented := prevention.damagePrevented
    consumed := prevention.gritConsumed
    suffered := final.damage
    remaining := prevention.gritRemaining }

/-- What veil does against risk. -/
def riskOffset (pools : Pools) (ratios : PreventionRatios) : Offset :=
  let (final, prevention) := pools.prevent ratios
  { prevented := prevention.riskPrevented
    consumed := prevention.veilConsumed
    suffered := final.risk
    remaining := prevention.veilRemaining }

/-- **Prevention does the most it can.** Of damage and of risk the largest amount is prevented that the
resource pays for, and the books balance; neither side looks at the other's pools or price, and the other
totals stay as they were. Every step stays in 64 bits, whatever the pools and the prices are. -/
theorem prevent_isBest (pools : Pools) (ratios : PreventionRatios) :
    pools.prevent? ratios = some (pools.prevent ratios) ∧
    (pools.damageOffset ratios).IsBest pools.damage pools.grit ratios.gritPerDamage ∧
    (pools.riskOffset ratios).IsBest pools.risk pools.veil ratios.veilPerRisk ∧
    ((pools.prevent ratios).1.money = pools.money ∧ (pools.prevent ratios).1.grit = pools.grit ∧
      (pools.prevent ratios).1.veil = pools.veil) ∧
    (∀ (others : Pools) (prices : PreventionRatios), others.damage = pools.damage →
      others.grit = pools.grit → prices.gritPerDamage = ratios.gritPerDamage →
        others.damageOffset prices = pools.damageOffset ratios) ∧
    ∀ (others : Pools) (prices : PreventionRatios), others.risk = pools.risk →
      others.veil = pools.veil → prices.veilPerRisk = ratios.veilPerRisk →
        others.riskOffset prices = pools.riskOffset ratios := by
  have hdamage (p : Pools) (r : PreventionRatios) :
      p.damageOffset r = offset p.damage p.grit r.gritPerDamage := rfl
  have hrisk (p : Pools) (r : PreventionRatios) :
      p.riskOffset r = offset p.risk p.veil r.veilPerRisk := rfl
  refine ⟨prevent?_eq pools ratios, hdamage pools ratios ▸ offset_isBest _ _ _,
    hrisk pools ratios ▸ offset_isBest _ _ _, ⟨rfl, rfl, rfl⟩, ?_, ?_⟩
  · intro others prices hburden hresource hprice
    rw [hdamage, hdamage, hburden, hresource, hprice]
  · intro others prices hburden hresource hprice
    rw [hrisk, hrisk, hburden, hresource, hprice]

/-- The steepest price buys from the fullest pool, and all that remains is less than the price. -/
example :
    let full : Points := ⟨9223372036854775807, by decide, by decide⟩
    let offset := offset full full 4294967295
    (offset.prevented.val, offset.remaining.val) = (2147483648, 2147483647) := by
  decide +kernel

end Pools

end PerkGraph
