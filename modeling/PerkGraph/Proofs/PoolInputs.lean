import PerkGraph.Proofs.PoolLedger
import PerkGraph.Proofs.SameOpening

/-!
# What pools are made from

A pool report is made from the ids in effect and from what stands at these ids: the colors, which conditions
look at, and the effect slots (`poolReport_reads_effective`). Neither the rest of the contract nor the
requests behind the ids in effect can be told from it. A condition sees only the situation it is judged in
(`LooksLike.holds_eq`); the docket is put together id by id (`docket_eq_flatMap`), and everything after the
docket is a function of it.
-/

namespace PerkGraph

namespace Situation

/-! ## What conditions see -/

/-- Two situations look the same to every condition. -/
structure LooksLike (situation twin : Situation) : Prop where
  roster_eq : situation.roster = twin.roster
  selected_eq : situation.selected = twin.selected
  extensions_eq : situation.extensions = twin.extensions
  color_eq : ∀ id ∈ situation.selected,
    (situation.contract.node? id).map Node.color = (twin.contract.node? id).map Node.color

variable {situation twin : Situation}

theorem LooksLike.colors_eq (h : situation.LooksLike twin) (p : String → Bool) :
    situation.colors p = twin.colors p := by
  unfold colors
  rw [← h.selected_eq]
  exact List.filterMap_congr fun id hid => h.color_eq id (List.mem_of_mem_filter hid)

theorem LooksLike.holds_eq (h : situation.LooksLike twin) (condition : Condition)
    (subject : String) : situation.holds condition subject = twin.holds condition subject := by
  cases condition with
  | always => rfl
  | runnerType type => simp only [holds, h.roster_eq]
  | runnerStat stat comparison value => simp only [holds, h.roster_eq]
  | nodeColor color => simp only [holds, h.colors_eq]
  | nodeColorCombo colors => simp only [holds, h.colors_eq]
  | extension kind argument => simp only [holds, h.extensions_eq, h.selected_eq]

/-- The verdict is one on what the text denotes, by the id of the node. -/
theorem LooksLike.judge_eq (h : situation.LooksLike twin) {node other : Node}
    {slot twinSlot : EffectSlot} (hid : node.id = other.id)
    (heffect : slot.effect = twinSlot.effect) :
    situation.judge node slot = twin.judge other twinSlot := by
  unfold judge
  simp only [heffect, hid, h.holds_eq]

/-! ## The docket, id by id -/

/-- The entries of the docket for an id. -/
def entriesAt (situation : Situation) (id : String) : List (SlotEntry Verdict) :=
  match situation.contract.node? id with
  | none => []
  | some node => node.effects.map (situation.judged node)

theorem docket_eq_flatMap (situation : Situation) :
    situation.docket = situation.selected.toList.flatMap situation.entriesAt := by
  unfold docket
  induction situation.selected.toList with
  | nil => rfl
  | cons id rest ih =>
    rw [List.flatMap_cons, ← ih, entriesAt]
    cases hnode : situation.contract.node? id with
    | none => rw [List.filterMap_cons_none hnode, List.nil_append]
    | some node => rw [List.filterMap_cons_some hnode, List.flatMap_cons]; rfl

end Situation

/-! ## What stands at the ids in effect -/

/-- What a node brings into the pools: a color for conditions to look at, and its effects. -/
def Node.contribution (node : Node) : NodeColor × List EffectSlot :=
  (node.color, node.effects)

namespace Contract

/-- Two contracts have the same colors and effect slots at each of the ids. -/
def AgreesOn (contract other : Contract) (ids : IdSet) : Prop :=
  ∀ id ∈ ids, (contract.node? id).map Node.contribution = (other.node? id).map Node.contribution

section AgreesOn

variable {contract other : Contract} {ids : IdSet}

theorem AgreesOn.looksLike (h : contract.AgreesOn other ids) (roster : Roster)
    (extensions : Extensions) :
    Situation.LooksLike { contract, roster, selected := ids, extensions }
      { contract := other, roster, selected := ids, extensions } where
  roster_eq := rfl
  selected_eq := rfl
  extensions_eq := rfl
  color_eq id hid := by
    have hcolor := congrArg (Option.map Prod.fst) (h id hid)
    rwa [Option.map_map, Option.map_map] at hcolor

theorem AgreesOn.docket_eq (h : contract.AgreesOn other ids) (roster : Roster)
    (extensions : Extensions) :
    Situation.docket { contract, roster, selected := ids, extensions } =
      Situation.docket { contract := other, roster, selected := ids, extensions } := by
  rw [Situation.docket_eq_flatMap, Situation.docket_eq_flatMap, List.flatMap_def, List.flatMap_def]
  refine congrArg List.flatten (List.map_congr_left fun id hid => ?_)
  have hcontribution := h id hid
  unfold Situation.entriesAt
  cases hnode : contract.node? id with
  | none =>
    rw [hnode, Option.map_none, eq_comm, Option.map_eq_none_iff] at hcontribution
    simp only [hcontribution]
  | some node =>
    rw [hnode, Option.map_some, eq_comm, Option.map_eq_some_iff] at hcontribution
    obtain ⟨twin, htwin, heq⟩ := hcontribution
    have hids : node.id = twin.id := (id_of_node? hnode).trans (id_of_node? htwin).symm
    simp only [htwin, (Prod.mk.inj heq).2]
    refine List.map_congr_left fun slot _ => ?_
    rw [Situation.judged, Situation.judged, hids,
      (h.looksLike roster extensions).judge_eq hids rfl]

end AgreesOn

/-! ## The main statement -/

/-- **Pools are made from what is in effect.** If a request to another contract has the same ids in
effect, with the same colors and effect slots, the totals and the trace are the same, and so is the whole
report at the same prices. Hence nothing shows of the order of a request or of ids in it that are not in
effect, of pruning it first, or of the colors and effects of nodes that are not in effect. -/
theorem poolReport_reads_effective (contract : Contract) (roster : Roster)
    (selection : Selection) (ratios : PreventionRatios) (extensions : Extensions) :
    let report := contract.poolReport roster selection ratios extensions
    let effective := contract.effective roster selection
    (∀ (other : Contract) (requests : Selection) (prices : PreventionRatios),
      other.effective roster requests = effective → contract.AgreesOn other effective →
      let twin := other.poolReport roster requests prices extensions
      twin.raw = report.raw ∧ twin.trace = report.trace ∧ (prices = ratios → twin = report)) ∧
    (∀ requests : Selection, (∀ id ∈ effective, id ∈ requests) →
      (∀ id ∈ requests, id ∈ selection ∨ id ∉ contract.effective roster requests) →
      contract.poolReport roster requests ratios extensions = report) ∧
    contract.poolReport roster (contract.prune roster selection).selection ratios extensions =
      report ∧
    ∀ other : Contract, contract.OpensLike other → contract.AgreesOn other effective →
      other.poolReport roster selection ratios extensions = report := by
  intro report effective
  have hreads (other : Contract) (requests : Selection) (prices : PreventionRatios)
      (hsame : other.effective roster requests = effective)
      (hagrees : contract.AgreesOn other effective) :
      other.poolReport roster requests prices extensions =
        Situation.report { contract, roster, selected := effective, extensions } prices := by
    rw [poolReport, hsame, Situation.report, Situation.report, hagrees.docket_eq]
  have hself : contract.AgreesOn contract effective := fun _ _ => rfl
  refine ⟨fun other requests prices hsame hagrees => ?_, fun requests hkept hstale => ?_,
    hreads contract _ ratios effective_prune hself, fun other hopens hagrees => ?_⟩
  · intro twin
    have htwin : twin = _ := hreads other requests prices hsame hagrees
    rw [htwin]
    refine ⟨rfl, rfl, ?_⟩
    rintro rfl
    rfl
  · refine hreads contract requests ratios (IdSet.subset_antisymm ?_ ?_) hself
    · refine effective_subset_of_forall_mem fun id hid => ?_
      exact (hstale id (mem_effective_iff.1 hid).1).resolve_right fun hout => hout hid
    · exact effective_subset_of_forall_mem hkept
  · exact hreads other selection ratios (hopens.effective_eq roster selection).symm hagrees

/-- A node that is requested but not in effect is left out of the second contract, and one that nobody requests
is added: the same start is in effect, with the same color and the same effect. -/
theorem poolReport_reads_effective_elsewhere :
    let contract : Contract :=
      { name := "heist"
        nodes :=
          [.ofRecord { id := "attic", color := .red, effect1 := some "None;+;9;Money" },
            .ofRecord { id := "start", kind := .start, effect1 := some "NodeColor:Red;+;5;Money" }]
        ascending := by decide
        wellFormed := by decide
        closed := by decide }
    let other : Contract :=
      { name := "escape"
        nodes :=
          [.ofRecord
              { id := "start", kind := .start, effect1 := some "NodeColor:Red;+;5;Money"
                connections := ["vault"] },
            .ofRecord { id := "vault", color := .red, effect1 := some "None;*;2;Money" }]
        ascending := by decide
        wellFormed := by decide
        closed := by decide }
    let selection : Selection := { ids := ["attic", "start"], nodup := by decide }
    let requests : Selection := { ids := ["start"], nodup := by decide }
    other.effective .empty requests = contract.effective .empty selection ∧
      contract.AgreesOn other (contract.effective .empty selection) ∧
      other.poolReport .empty requests {} .unresolved =
        contract.poolReport .empty selection {} .unresolved := by
  intro contract other selection requests
  have hstart : contract.effective .empty selection = requests.toIdSet := by decide +kernel
  have hsame : other.effective .empty requests = contract.effective .empty selection := by decide +kernel
  have hagrees : contract.AgreesOn other (contract.effective .empty selection) := by
    intro id hid
    obtain rfl : id = "start" := by
      rw [hstart, Selection.mem_toIdSet] at hid
      exact List.mem_singleton.1 hid
    decide +kernel
  obtain ⟨htwin, -⟩ := contract.poolReport_reads_effective .empty selection {} .unresolved
  exact ⟨hsame, hagrees, (htwin other requests {} hsame hagrees).2.2 rfl⟩

end Contract

end PerkGraph
