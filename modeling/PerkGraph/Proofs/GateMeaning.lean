import Mathlib.Algebra.Order.BigOperators.Group.List
import Mathlib.Algebra.Order.Group.Nat
import PerkGraph.Proofs.CheckedPoints
import PerkGraph.Proofs.GateGrammar
import PerkGraph.Proofs.TeamStrength

/-!
# What a gate text asks for

A gate text has a word for what is counted, items and a threshold (`GateRule.HasContent`). What it asks for can be
said of the items as they are listed, without the rule that they are read as (`GateKind.IsMet`). A repeated type or
stat makes no difference there, being counted or summed up once; a repeated id would, so there is none, and counting
the items agrees with counting the ids of the rule. A gate opens when this is met (`GateRule.holds_iff_isMet`).

The stats of a team are summed up in 64 bits. Three runners and four stats of 32 bits each stay well below the limit,
so these sums never fail (`GateRule.holds?_eq`).
-/

namespace PerkGraph

instance {α : Type} [Vocabulary α] (s : String) (a : α) : Decidable (Vocabulary.Spells s a) :=
  inferInstanceAs (Decidable (∃ spelling ∈ Vocabulary.spellings a,
    Text.sameLetters spelling (Text.trim s) = true))

/-! ## Content -/

/-- The gate text has the word of the kind, lists the items and ends in the threshold. -/
def GateRule.HasContent (raw : String) (kind : GateKind) (items : List String) (threshold : Nat) : Prop :=
  ∃ head last word params, Text.HasFields ';' raw [head, last] ∧ Text.HasHalves ':' head word params ∧
    Text.HasFields ',' params items ∧ Vocabulary.Spells word kind ∧ Text.IsNumeral last threshold

/-- A team with these selected ids meets what a gate of the kind asks for. -/
def GateKind.IsMet (kind : GateKind) (items : List String) (threshold : Nat) (roster : Roster)
    (selected : IdSet) : Prop :=
  match kind with
  | .node =>
    if threshold = 0 then ∀ item ∈ items, item ∈ selected
    else threshold ≤ items.countP fun item => item ∈ selected
  | .runnerType =>
    threshold ≤ roster.active.countP fun runner => ∃ item ∈ items, Vocabulary.Spells item runner.type
  | .runnerStat =>
    threshold ≤ ((Vocabulary.all.filter fun stat : RunnerStat => ∃ item ∈ items,
      Vocabulary.Spells item stat).map fun stat =>
        (roster.active.map fun runner => (runner.stat stat).toNat).sum).sum

namespace GateRule

variable {raw : String} {kind other : GateKind} {items others : List String} {threshold bound : Nat}
  {rule : GateRule} {roster : Roster} {selected : IdSet}

theorem HasContent.unique (h : HasContent raw kind items threshold)
    (h' : HasContent raw other others bound) :
    kind = other ∧ items = others ∧ threshold = bound := by
  obtain ⟨head, last, word, params, hfields, hhalves, hitems, hkind, hthreshold⟩ := h
  obtain ⟨head', last', word', params', hfields', hhalves', hitems', hkind', hthreshold'⟩ := h'
  cases hfields.unique hfields'
  obtain ⟨rfl, rfl⟩ := hhalves.unique hhalves'
  refine ⟨hkind.unique hkind', hitems.unique hitems', ?_⟩
  rw [← Text.readInt?_eq_some_iff] at hthreshold hthreshold'
  exact Int.ofNat_inj.1 (Option.some.inj (hthreshold.symm.trans hthreshold'))

/-- A text that is a gate rule has content, and its items are those that the rule lists. -/
theorem exists_hasContent (h : read raw = .ok rule) : ∃ kind items,
    HasContent raw kind items rule.threshold ∧ GateDemand.Lists kind items rule.demand := by
  obtain ⟨head, last, hfields, hthreshold, -, hdemand⟩ := read_eq_ok_iff_denotes.1 h
  obtain ⟨word, params, items, kind, hhalves, -, hitems, hkind, hlists⟩ := hdemand
  exact ⟨kind, items, ⟨head, last, word, params, hfields, hhalves, hitems, hkind, hthreshold⟩, hlists⟩

/-! ## When a gate opens -/

theorem holds_runnerTypes_iff {types : List RunnerType} (hdemand : rule.demand = .runnerTypes types) :
    rule.holds roster selected = true ↔
      rule.threshold ≤ roster.active.countP fun runner => runner.type ∈ types := by
  simp only [holds, hdemand, decide_eq_true_eq, ge_iff_le]

theorem holds_runnerStats_iff {stats : List RunnerStat} (hdemand : rule.demand = .runnerStats stats) :
    rule.holds roster selected = true ↔ rule.threshold ≤ (stats.map roster.total).sum := by
  simp only [holds, hdemand, decide_eq_true_eq, ge_iff_le, List.sum, List.foldr_map]

/-- Ids are listed once each, so as many items are selected as ids. -/
theorem countP_eq_size_filter {ids : IdSet} (hnodup : items.Nodup) (hids : ∀ id, id ∈ ids ↔ id ∈ items) :
    (items.countP fun item => item ∈ selected) = (ids.filter (· ∈ selected)).size := by
  have hperm : items.Perm ids.toList :=
    (List.perm_ext_iff_of_nodup hnodup ids.nodup_toList).2 fun id => (hids id).symm
  rw [hperm.countP_eq, List.countP_eq_length_filter]
  rfl

theorem holds_iff_isMet (h : GateDemand.Lists kind items rule.demand) :
    rule.holds roster selected = true ↔ kind.IsMet items rule.threshold roster selected := by
  generalize hdemand : rule.demand = demand at h
  cases h with
  | nodes hid hnodup hids =>
    rw [holds_nodes_iff hdemand, ← countP_eq_size_filter hnodup hids]
    unfold GateKind.IsMet
    dsimp only
    have hall : (∀ id ∈ items, id ∈ selected) ↔ _ ⊆ selected :=
      forall_congr' fun id => imp_congr_left (hids id).symm
    rw [hall]
  | runnerTypes hspells =>
    rw [holds_runnerTypes_iff hdemand]
    unfold GateKind.IsMet
    simp only [hspells.mem_iff]
  | @runnerStats _ stats hspells =>
    have hstats : (Vocabulary.all.filter fun stat : RunnerStat => ∃ item ∈ items,
        Vocabulary.Spells item stat) = stats := by
      rw [← hspells.inOrder_eq]
      unfold Vocabulary.inOrder
      simp only [hspells.mem_iff]
    rw [holds_runnerStats_iff hdemand]
    unfold GateKind.IsMet
    have htotal : roster.total = fun stat =>
        (roster.active.map fun runner => (runner.stat stat).toNat).sum :=
      funext fun stat => Roster.total_eq_sum stat
    dsimp only
    rw [hstats, htotal]

end GateRule

/-! ## Sums in 64 bits -/

/-- The sum of a stat over the runners that fill their slots, added up runner by runner. -/
def Roster.total? (roster : Roster) (stat : RunnerStat) : Option Points :=
  Points.sum? (roster.active.map fun runner => .ofUInt32 (runner.stat stat))

/-- Whether the rule holds, without an answer if a sum of stats is out of range. -/
def GateRule.holds? (rule : GateRule) (roster : Roster) (selected : IdSet) : Option Bool :=
  match rule.demand with
  | .runnerStats stats => do
    let totals ← stats.mapM roster.total?
    let sum ← Points.sum? totals
    return rule.threshold ≤ sum.val
  | _ => some (rule.holds roster selected)

theorem sum_map_le {α : Type} {f : α → Nat} {bound : Nat} (h : ∀ x, f x ≤ bound) (xs : List α) :
    (xs.map f).sum ≤ xs.length * bound := by
  have hpart : ∀ amount ∈ xs.map f, amount ≤ bound := by
    intro amount hamount
    obtain ⟨x, -, rfl⟩ := List.mem_map.1 hamount
    exact h x
  have hsum := List.sum_le_card_nsmul _ _ hpart
  rwa [List.length_map, Nat.nsmul_eq_mul] at hsum

namespace Roster

variable (roster : Roster) (stat : RunnerStat)

theorem length_active_le : roster.active.length ≤ 3 := by
  have hle := List.length_filter_le Runner.isActive roster.runners.toList
  rwa [Vector.length_toList] at hle

theorem total_le : roster.total stat ≤ 3 * 0xFFFFFFFF := by
  have hstat (runner : Runner) : (runner.stat stat).toNat ≤ 0xFFFFFFFF := by
    have hlt := (runner.stat stat).toNat_lt
    omega
  rw [total_eq_sum]
  exact Nat.le_trans (sum_map_le hstat roster.active) (Nat.mul_le_mul_right _ roster.length_active_le)

/-- The sum of a stat is never out of range. -/
theorem exists_total? : ∃ total, roster.total? stat = some total ∧ total.IsWorth (roster.total stat) := by
  have hworth : List.Forall₂ Points.IsWorth
      (roster.active.map fun runner => Points.ofUInt32 (runner.stat stat))
      (roster.active.map fun runner => (runner.stat stat).toNat) := by
    rw [List.forall₂_map_left_iff, List.forall₂_map_right_iff]
    exact List.forall₂_same.2 fun runner _ => rfl
  have hle := roster.total_le stat
  refine ⟨⟨roster.total stat, by omega, by omega⟩, ?_, rfl⟩
  rw [total?, Points.sum?_eq hworth, ← total_eq_sum, Points.ofInt?_eq_some_iff]

/-- All stats of a list are summed up. -/
theorem exists_mapM_total? (stats : List RunnerStat) : ∃ totals,
    stats.mapM roster.total? = some totals ∧
      List.Forall₂ Points.IsWorth totals (stats.map roster.total) := by
  induction stats with
  | nil => exact ⟨[], rfl, .nil⟩
  | cons stat rest ih =>
    obtain ⟨total, htotal, hworth⟩ := roster.exists_total? stat
    obtain ⟨totals, htotals, hworths⟩ := ih
    refine ⟨total :: totals, ?_, .cons hworth hworths⟩
    rw [List.mapM_cons, htotal, htotals]
    rfl

end Roster

namespace GateRule

variable {raw : String} {rule : GateRule} {roster : Roster} {selected : IdSet}

/-- A rule lists each stat once at most. -/
theorem length_le_of_inOrder {stats : List RunnerStat} (h : Vocabulary.inOrder stats = stats) :
    stats.length ≤ 4 := by
  rw [← h]
  exact List.length_filter_le _ _

/-- Steps in 64 bits give the answer of exact sums. -/
theorem holds?_eq (h : ∀ stats, rule.demand = .runnerStats stats → Vocabulary.inOrder stats = stats) :
    rule.holds? roster selected = some (rule.holds roster selected) := by
  unfold holds?
  cases hdemand : rule.demand with
  | nodes ids => rfl
  | runnerTypes types => rfl
  | runnerStats stats =>
    obtain ⟨totals, htotals, hworths⟩ := roster.exists_mapM_total? stats
    have hle : (stats.map roster.total).sum ≤ 4 * (3 * 0xFFFFFFFF) :=
      Nat.le_trans (sum_map_le roster.total_le stats)
        (Nat.mul_le_mul_right _ (length_le_of_inOrder (h stats hdemand)))
    obtain ⟨sum, hsum⟩ : ∃ sum : Points, sum.val = ((stats.map roster.total).sum : Nat) :=
      ⟨⟨(stats.map roster.total).sum, by omega, by omega⟩, rfl⟩
    have hadded : Points.sum? totals = some sum := by
      rw [Points.sum?_eq hworths, Points.ofInt?_eq_some_iff, hsum]
    have hanswer : decide ((rule.threshold : Int) ≤ sum.val) = rule.holds roster selected := by
      rw [Bool.eq_iff_iff, decide_eq_true_eq, hsum, Int.ofNat_le, holds_runnerStats_iff hdemand]
    simp only [htotals, hadded, Option.bind_eq_bind, Option.bind_some, Option.pure_def, hanswer]

/-! ## The main statement -/

/-- **A gate opens when the text says so.** The text of a rule has one word, one list of items and one threshold, and
for any team and any selected ids the rule holds if and only if what they ask for is met. All of it can be computed in
64 bits: neither the sum of a stat over the team nor the sum of those sums is ever out of range. -/
theorem text_says_when_open (h : read raw = .ok rule) :
    (∃ kind items, HasContent raw kind items rule.threshold) ∧
    (∀ kind items threshold, HasContent raw kind items threshold →
      ∀ (roster : Roster) (selected : IdSet),
        rule.holds? roster selected = some (rule.holds roster selected) ∧
        (rule.holds roster selected = true ↔ kind.IsMet items threshold roster selected)) ∧
    ∀ (roster : Roster) (stat : RunnerStat), ∃ total,
      roster.total? stat = some total ∧ total.val = roster.total stat := by
  obtain ⟨kind, items, hcontent, hlists⟩ := exists_hasContent h
  refine ⟨⟨kind, items, hcontent⟩, ?_, fun roster stat => roster.exists_total? stat⟩
  intro kind' items' threshold' hcontent' roster selected
  obtain ⟨rfl, rfl, rfl⟩ := hcontent.unique hcontent'
  refine ⟨holds?_eq ?_, holds_iff_isMet hlists⟩
  intro stats hdemand
  rw [hdemand] at hlists
  cases hlists with
  | runnerStats hspells => exact hspells.inOrder_eq

/-- A stat that is listed twice is summed up once, and the stats of an empty slot do not count. -/
theorem text_says_when_open_repeated :
    let raw := " runnerstat : Face,NINJA , face ; +6"
    let rule : GateRule := { demand := .runnerStats [.face, .ninja], threshold := 6 }
    let team : Roster := { runners := #v[{ type := .face, face := 4, ninja := 1 }, { face := 9 }, {}] }
    read raw = .ok rule ∧ HasContent raw .runnerStat ["Face", "NINJA", "face"] 6 ∧
      rule.holds? team .empty = some false ∧
      ¬GateKind.runnerStat.IsMet ["Face", "NINJA", "face"] 6 team .empty := by
  intro raw rule team
  have hread : read raw = .ok rule := by decide +kernel
  have hcontent : HasContent raw .runnerStat ["Face", "NINJA", "face"] 6 := by
    refine ⟨"runnerstat : Face,NINJA , face", "+6", "runnerstat", "Face,NINJA , face", ?_, ?_, ?_, ?_, ?_⟩
    · exact Text.hasFields_iff.2 (by decide +kernel)
    · exact Text.hasHalves_iff.2 ⟨"runnerstat ", " Face,NINJA , face", by decide +kernel⟩
    · exact Text.hasFields_iff.2 (by decide +kernel)
    · decide +kernel
    · exact Text.readInt?_eq_some_iff.1 (by decide +kernel)
  have hclosed : rule.holds team .empty = false := by decide +kernel
  obtain ⟨hsteps, hmet⟩ := (text_says_when_open hread).2.1 _ _ _ hcontent team .empty
  refine ⟨hread, hcontent, ?_, fun h => ?_⟩
  · rw [hsteps, hclosed]
  · rw [hmet.2 h] at hclosed
    cases hclosed

end GateRule

end PerkGraph
