import PerkGraph.Roster
import PerkGraph.Rule.Gate

/-! # When a gate opens

A gate counts selected nodes, or counts runners, or sums up stats of the team, and opens when its threshold
is reached.
-/

namespace PerkGraph

/-- The rule holds for this team and these selected ids. A threshold of 0 asks for all listed nodes; it asks
for no runners and for no stats. -/
def GateRule.holds (rule : GateRule) (roster : Roster) (selected : IdSet) : Bool :=
  match rule.demand with
  | .nodes ids =>
    let hits := ids.toList.countP fun id => id ∈ selected
    if rule.threshold = 0 then hits = ids.size else hits ≥ rule.threshold
  | .runnerTypes types =>
    (roster.active.countP fun runner => runner.type ∈ types) ≥ rule.threshold
  | .runnerStats stats => stats.foldr (fun stat sum => roster.total stat + sum) 0 ≥ rule.threshold

/-- A rule over nodes asks for all of its ids or for a number of them. -/
theorem GateRule.holds_nodes_iff {rule : GateRule} {ids s : IdSet} {roster : Roster}
    (hdemand : rule.demand = .nodes ids) :
    rule.holds roster s = true ↔
      if rule.threshold = 0 then ids ⊆ s else rule.threshold ≤ (ids.filter (· ∈ s)).size := by
  simp only [holds, hdemand, IdSet.size, IdSet.filter, ← List.countP_eq_length_filter]
  split
  · simp only [decide_eq_true_eq, List.countP_eq_length]
    exact Iff.rfl
  · simp only [decide_eq_true_eq, ge_iff_le]

end PerkGraph
