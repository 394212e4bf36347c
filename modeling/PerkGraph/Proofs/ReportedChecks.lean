import Mathlib.Data.List.Nodup
import PerkGraph.Proofs.Reachability

/-!
# Every violated check is reported once

A report is free of errors if and only if nothing is amiss that would block something (`Contract.IsWorkable`), and
free of warnings if and only if the contract carries no data that never matter (`Contract.IsTidy`). In between, every
check that a contract violates has one finding, and the findings are in order: what concerns the contract as a whole,
then node by node in ascending order of ids, the checks of a node one after the other, and the listed ids of a gate
in ascending order (`FindingPlace.Precedes`). This order is strict, so it rules out repetitions by itself.

The checks of a node do not all apply to it, and one that fails can make those after it pointless. Going through them
one by one, a node without a gate's kind is done after two of them, and a gate without a rule that can be read before
its rule is looked at (`Contract.inspect`). Nothing is lost this way: the pass ends in the report
(`Contract.inspectAll_eq`).
-/

namespace PerkGraph

/-! ## Places in a report -/

/-- Where a finding stands in a report. -/
structure FindingPlace where
  /-- The node that the finding is about, or none if it is about the contract as a whole. -/
  node : Option String := none
  /-- The number of the check among those of a node. -/
  check : Nat := 0
  /-- The listed id that the finding is about, where a check looks at several. -/
  listed : String := ""

namespace FindingPlace

/-- The order of a report. -/
inductive Precedes : FindingPlace → FindingPlace → Prop
  | whole {place other : FindingPlace} {id : String} (h : place.node = none)
      (h' : other.node = some id) : Precedes place other
  | node {place other : FindingPlace} {id id' : String} (h : place.node = some id)
      (h' : other.node = some id') (hlt : id < id') : Precedes place other
  | check {place other : FindingPlace} (h : place.node = other.node)
      (hlt : place.check < other.check) : Precedes place other
  | listed {place other : FindingPlace} (h : place.node = other.node)
      (h' : place.check = other.check) (hlt : place.listed < other.listed) : Precedes place other

theorem Precedes.irrefl (place : FindingPlace) : ¬place.Precedes place := by
  intro h
  cases h with
  | whole h h' => cases h.symm.trans h'
  | node h h' hlt =>
    cases h.symm.trans h'
    exact String.lt_irrefl _ hlt
  | check _ hlt => exact Nat.lt_irrefl _ hlt
  | listed _ _ hlt => exact String.lt_irrefl _ hlt

/-- In a list ordered by place nothing is repeated. -/
theorem nodup_of_pairwise {α : Type} {place : α → FindingPlace} {xs : List α}
    (h : xs.Pairwise fun x y => (place x).Precedes (place y)) : xs.Nodup := by
  refine h.imp fun {x y} hxy => ?_
  rintro rfl
  exact Precedes.irrefl _ hxy

/-- Findings are in order if those of each node are, and each node is named by its own findings. -/
theorem pairwise_flatMap_nodes {α : Type} {place : α → FindingPlace} {contract : Contract}
    {found : Node → List α} (hnode : ∀ node, ∀ x ∈ found node, (place x).node = some node.id)
    (h : ∀ node, (found node).Pairwise fun x y => (place x).Precedes (place y)) :
    (contract.nodes.flatMap found).Pairwise fun x y => (place x).Precedes (place y) := by
  rw [List.pairwise_flatMap]
  refine ⟨fun node _ => h node, contract.ascending.imp fun {node other} hlt x hx y hy => ?_⟩
  exact .node (hnode node x hx) (hnode other y hy) hlt

end FindingPlace

/-- Where an error stands in a report. -/
def Defect.place : Defect → FindingPlace
  | noStart => {}
  | badEffect node slot _ _ => { node := some node, check := slot.toNat }
  | effectsOnGate node => { node := some node, check := 3 }
  | gateWithoutRule node => { node := some node, check := 4 }
  | badGate node _ _ => { node := some node, check := 5 }
  | unknownGateNode node listed => { node := some node, check := 6, listed }

/-- Where a warning stands in a report. -/
def Caution.place : Caution → FindingPlace
  | gateIgnored node _ _ => { node := some node, check := 1 }
  | edgesFromEnd node => { node := some node, check := 2 }
  | thresholdTooHigh node _ _ => { node := some node, check := 3 }
  | unreachable node => { node := some node, check := 4 }

namespace Contract

variable {contract : Contract}

/-! ## The order of errors -/

section Errors

variable {node : Node} {defect : Defect}

theorem place_of_mem_effectDefects (h : defect ∈ effectDefects node) :
    defect.place.node = some node.id ∧ defect.place.check ≤ 2 := by
  obtain ⟨slot, -, hfound⟩ := List.mem_filterMap.1 h
  split at hfound
  · cases hfound
  · cases hfound
    refine ⟨rfl, ?_⟩
    change slot.slot.toNat ≤ 2
    cases slot.slot with
    | first => exact Nat.le_succ 1
    | second => exact Nat.le_refl 2

theorem pairwise_effectDefects (node : Node) :
    (effectDefects node).Pairwise fun x y => x.place.Precedes y.place := by
  unfold effectDefects
  rw [List.pairwise_filterMap]
  refine node.pairwise_effects.imp fun {slot other} hlt x hx y hy => ?_
  split at hx
  · cases hx
  · split at hy
    · cases hy
    · cases hx
      cases hy
      exact .check rfl hlt

theorem place_of_mem_ruleDefects {rule : GateRule} (h : defect ∈ contract.ruleDefects node rule) :
    defect.place.node = some node.id ∧ defect.place.check = 6 := by
  unfold ruleDefects at h
  split at h
  · obtain ⟨id, -, rfl⟩ := List.mem_map.1 h
    exact ⟨rfl, rfl⟩
  · cases h

theorem pairwise_ruleDefects (node : Node) (rule : GateRule) :
    (contract.ruleDefects node rule).Pairwise fun x y => x.place.Precedes y.place := by
  unfold ruleDefects
  split
  · rename_i ids _
    rw [List.pairwise_map]
    exact (ids.ascending.filter _).imp fun hlt => .listed rfl rfl hlt
  · exact .nil

theorem place_of_mem_gateDefects (h : defect ∈ contract.gateDefects node) :
    defect.place.node = some node.id ∧ 3 ≤ defect.place.check := by
  rw [gateDefects, List.mem_append] at h
  rcases h with h | h
  · split at h
    · cases h
    · obtain rfl := List.mem_singleton.1 h
      exact ⟨rfl, Nat.le_refl 3⟩
  · split at h
    · obtain rfl := List.mem_singleton.1 h
      exact ⟨rfl, Nat.le_succ 3⟩
    · split at h
      · obtain rfl := List.mem_singleton.1 h
        exact ⟨rfl, Nat.le_add_right 3 2⟩
      · obtain ⟨hid, hcheck⟩ := place_of_mem_ruleDefects h
        exact ⟨hid, by omega⟩

/-- Effects on a gate are found before its rule is looked at. -/
theorem pairwise_effectsOnGate_append {rest : List Defect}
    (hrest : rest.Pairwise fun x y => x.place.Precedes y.place)
    (hplace : ∀ y ∈ rest, y.place.node = some node.id ∧ 3 < y.place.check) :
    ((if node.effects = [] then [] else [Defect.effectsOnGate node.id]) ++ rest).Pairwise fun x y =>
      x.place.Precedes y.place := by
  split
  · exact hrest
  · refine List.pairwise_cons.2 ⟨fun y hy => ?_, hrest⟩
    obtain ⟨hid, hcheck⟩ := hplace y hy
    exact .check hid.symm hcheck

theorem pairwise_gateDefects (node : Node) :
    (contract.gateDefects node).Pairwise fun x y => x.place.Precedes y.place := by
  unfold gateDefects
  cases node.gate with
  | none =>
    apply pairwise_effectsOnGate_append (List.pairwise_singleton _ _)
    intro y hy
    obtain rfl := List.mem_singleton.1 hy
    exact ⟨rfl, Nat.lt_succ_self 3⟩
  | some raw =>
    dsimp only
    cases GateRule.read raw.text with
    | error error =>
      apply pairwise_effectsOnGate_append (List.pairwise_singleton _ _)
      intro y hy
      obtain rfl := List.mem_singleton.1 hy
      exact ⟨rfl, Nat.lt_add_of_pos_right Nat.two_pos⟩
    | ok rule =>
      apply pairwise_effectsOnGate_append (pairwise_ruleDefects node rule)
      intro y hy
      obtain ⟨hid, hcheck⟩ := place_of_mem_ruleDefects hy
      exact ⟨hid, by omega⟩

theorem place_of_mem_nodeDefects (h : defect ∈ contract.nodeDefects node) :
    defect.place.node = some node.id := by
  rw [nodeDefects, List.mem_append] at h
  rcases h with h | h
  · exact (place_of_mem_effectDefects h).1
  · split at h
    · exact (place_of_mem_gateDefects h).1
    · cases h

theorem pairwise_nodeDefects (node : Node) :
    (contract.nodeDefects node).Pairwise fun x y => x.place.Precedes y.place := by
  unfold nodeDefects
  rw [List.pairwise_append]
  refine ⟨pairwise_effectDefects node, ?_, fun x hx y hy => ?_⟩
  · split
    · exact pairwise_gateDefects node
    · exact .nil
  · obtain ⟨hid, hcheck⟩ := place_of_mem_effectDefects hx
    split at hy
    · obtain ⟨hid', hcheck'⟩ := place_of_mem_gateDefects hy
      exact .check (hid.trans hid'.symm) (by omega)
    · cases hy

theorem pairwise_errors (contract : Contract) :
    contract.validate.errors.Pairwise fun x y => x.place.Precedes y.place := by
  simp only [validate]
  rw [List.pairwise_append]
  refine ⟨?_, FindingPlace.pairwise_flatMap_nodes (fun _ _ => place_of_mem_nodeDefects)
    pairwise_nodeDefects, fun x hx y hy => ?_⟩
  · split
    · exact List.pairwise_singleton _ _
    · exact .nil
  · obtain ⟨node, -, hfound⟩ := List.mem_flatMap.1 hy
    split at hx
    · obtain rfl := List.mem_singleton.1 hx
      exact .whole rfl (place_of_mem_nodeDefects hfound)
    · cases hx

end Errors

/-! ## The order of warnings -/

section Warnings

variable {node : Node} {caution : Caution}

theorem place_of_mem_kindCautions (h : caution ∈ kindCautions node) :
    caution.place.node = some node.id ∧ caution.place.check ≤ 3 := by
  unfold kindCautions at h
  split at h
  · split at h
    · unfold ruleCautions at h
      split at h
      · split at h
        · obtain rfl := List.mem_singleton.1 h
          exact ⟨rfl, Nat.le_refl 3⟩
        · cases h
      · cases h
    · cases h
  · rcases List.mem_append.1 h with h | h
    · obtain ⟨raw, -, rfl⟩ := Option.map_eq_some_iff.1 (Option.mem_toList.1 h)
      exact ⟨rfl, Nat.le_add_right 1 2⟩
    · split at h
      · obtain rfl := List.mem_singleton.1 h
        exact ⟨rfl, Nat.le_succ 2⟩
      · cases h

theorem pairwise_kindCautions (node : Node) :
    (kindCautions node).Pairwise fun x y => x.place.Precedes y.place := by
  unfold kindCautions
  split
  · split
    · unfold ruleCautions
      split
      · split
        · exact List.pairwise_singleton _ _
        · exact .nil
      · exact .nil
    · exact .nil
  · rw [List.pairwise_append]
    refine ⟨?_, ?_, fun x hx y hy => ?_⟩
    · cases node.gate with
      | none => exact .nil
      | some raw => exact List.pairwise_singleton _ _
    · split
      · exact List.pairwise_singleton _ _
      · exact .nil
    · obtain ⟨raw, -, rfl⟩ := Option.map_eq_some_iff.1 (Option.mem_toList.1 hx)
      split at hy
      · obtain rfl := List.mem_singleton.1 hy
        exact .check rfl (Nat.lt_succ_self 1)
      · cases hy

theorem place_of_mem_nodeCautions {reachable : IdSet} (h : caution ∈ nodeCautions reachable node) :
    caution.place.node = some node.id := by
  rw [nodeCautions, List.mem_append] at h
  rcases h with h | h
  · exact (place_of_mem_kindCautions h).1
  · split at h
    · cases h
    · obtain rfl := List.mem_singleton.1 h
      rfl

theorem pairwise_nodeCautions (reachable : IdSet) (node : Node) :
    (nodeCautions reachable node).Pairwise fun x y => x.place.Precedes y.place := by
  unfold nodeCautions
  rw [List.pairwise_append]
  refine ⟨pairwise_kindCautions node, ?_, fun x hx y hy => ?_⟩
  · split
    · exact .nil
    · exact List.pairwise_singleton _ _
  · obtain ⟨hid, hcheck⟩ := place_of_mem_kindCautions hx
    split at hy
    · cases hy
    · obtain rfl := List.mem_singleton.1 hy
      exact .check hid (Nat.lt_succ_of_le hcheck)

theorem pairwise_warnings (contract : Contract) :
    contract.validate.warnings.Pairwise fun x y => x.place.Precedes y.place :=
  FindingPlace.pairwise_flatMap_nodes (fun _ _ => place_of_mem_nodeCautions)
    (pairwise_nodeCautions contract.reachable)

end Warnings

end Contract

/-! ## The checks one by one -/

/-- The report with further findings. -/
def Validation.add (report : Validation) (errors : List Defect) (warnings : List Caution) : Validation where
  errors := report.errors ++ errors
  warnings := report.warnings ++ warnings

namespace Contract

variable (contract : Contract) (node : Node)

/-- Checks an effect. -/
def inspectSlot (report : Validation) (slot : EffectSlot) : Validation :=
  match slot.effect with
  | .ok _ => report
  | .error error => report.add [.badEffect node.id slot.slot slot.raw.text error] []

/-- Checks an id that a gate lists. -/
def inspectListed (report : Validation) (id : String) : Validation :=
  if contract.node? id = none then report.add [.unknownGateNode node.id id] [] else report

/-- Checks the rule of a gate. -/
def inspectRule (report : Validation) (rule : GateRule) : Validation :=
  match rule.demand with
  | .nodes ids =>
    let report := ids.toList.foldl (contract.inspectListed node) report
    if rule.threshold > ids.size then
      report.add [] [.thresholdTooHigh node.id rule.threshold ids.size]
    else report
  | _ => report

/-- Checks what a gate must have. -/
def inspectGate (report : Validation) : Validation :=
  let report := if node.effects ≠ [] then report.add [.effectsOnGate node.id] [] else report
  match node.gate with
  | none => report.add [.gateWithoutRule node.id] []
  | some raw =>
    match GateRule.read raw.text with
    | .error error => report.add [.badGate node.id raw.text error] []
    | .ok rule => contract.inspectRule node report rule

/-- Checks what stands on a node that is no gate. -/
def inspectOther (report : Validation) : Validation :=
  let report :=
    match node.gate with
    | none => report
    | some raw => report.add [] [.gateIgnored node.id raw.text node.kind]
  if node.kind = .finish ∧ node.connections ≠ [] then report.add [] [.edgesFromEnd node.id]
  else report

/-- Makes the checks of a node, one after the other. -/
def inspect (report : Validation) : Validation :=
  let report := node.effects.foldl (inspectSlot node) report
  if node.kind ≠ .gate then inspectOther node report else contract.inspectGate node report

/-- Makes the checks of a node and looks whether the search has found it. -/
def inspectReached (reachable : IdSet) (report : Validation) (node : Node) : Validation :=
  let report := contract.inspect node report
  if node.id ∉ reachable then report.add [] [.unreachable node.id] else report

/-- Makes all checks, one after the other. -/
def inspectAll : Validation :=
  let report : Validation := { errors := [], warnings := [] }
  let report :=
    if contract.nodes.any fun node => node.kind = .start then report else report.add [.noStart] []
  contract.nodes.foldl (contract.inspectReached contract.reachable) report

end Contract

namespace Validation

variable {report : Validation}

@[simp] theorem add_nil_nil : report.add [] [] = report := by
  simp [add]

@[simp] theorem add_add {errors errors' : List Defect} {warnings warnings' : List Caution} :
    (report.add errors warnings).add errors' warnings' =
      report.add (errors ++ errors') (warnings ++ warnings') := by
  simp [add]

/-- Checks that each add their findings add them all, in the order in which they are made. -/
theorem foldl_eq_add {α : Type} {check : Validation → α → Validation} {errors : α → List Defect}
    {warnings : α → List Caution} (h : ∀ report x, check report x = report.add (errors x) (warnings x))
    (xs : List α) (report : Validation) :
    xs.foldl check report = report.add (xs.flatMap errors) (xs.flatMap warnings) := by
  induction xs generalizing report with
  | nil => simp
  | cons x rest ih => rw [List.foldl_cons, ih, h, add_add, List.flatMap_cons, List.flatMap_cons]

theorem foldl_eq_add_filterMap {α : Type} {check : Validation → α → Validation}
    {find : α → Option Defect} (h : ∀ report x, check report x = report.add (find x).toList [])
    (xs : List α) (report : Validation) :
    xs.foldl check report = report.add (xs.filterMap find) [] := by
  have hnone : xs.flatMap (fun _ => ([] : List Caution)) = [] :=
    List.flatMap_eq_nil_iff.2 fun _ _ => rfl
  rw [foldl_eq_add h, List.filterMap_eq_flatMap_toList, hnone]

end Validation

namespace Contract

variable {node : Node} {report : Validation}

theorem foldl_inspectSlot :
    node.effects.foldl (inspectSlot node) report = report.add (effectDefects node) [] := by
  refine Validation.foldl_eq_add_filterMap (fun report slot => ?_) node.effects report
  unfold inspectSlot
  cases slot.effect with
  | ok effect => exact Validation.add_nil_nil.symm
  | error error => rfl

variable (contract : Contract)

theorem inspectRule_eq (rule : GateRule) :
    contract.inspectRule node report rule =
      report.add (contract.ruleDefects node rule) (ruleCautions node rule) := by
  have hlisted (report : Validation) (id : String) :
      contract.inspectListed node report id =
        report.add (if (contract.node? id).isNone then some (Defect.unknownGateNode node.id id)
          else none).toList [] := by
    unfold inspectListed
    cases contract.node? id <;> simp
  have hall (ids : List String) :
      (ids.filterMap fun id =>
        if (contract.node? id).isNone then some (Defect.unknownGateNode node.id id) else none) =
      (ids.filter fun id => (contract.node? id).isNone).map (Defect.unknownGateNode node.id) := by
    rw [← List.filterMap_eq_map, List.filterMap_filter]
    rfl
  unfold inspectRule ruleDefects ruleCautions
  cases rule.demand with
  | nodes ids =>
    dsimp only
    rw [Validation.foldl_eq_add_filterMap hlisted, hall]
    by_cases hhigh : rule.threshold > ids.size
    · rw [if_pos hhigh, if_pos hhigh, Validation.add_add, List.append_nil, List.nil_append]
    · rw [if_neg hhigh, if_neg hhigh]
  | runnerTypes _ => exact Validation.add_nil_nil.symm
  | runnerStats _ => exact Validation.add_nil_nil.symm

/-- The checks of a gate that end early have found all that can be found. -/
theorem inspectGate_eq (hkind : node.kind = .gate) :
    contract.inspectGate node report =
      report.add (contract.gateDefects node) (kindCautions node) := by
  have hcarries : (if node.effects ≠ [] then report.add [.effectsOnGate node.id] [] else report) =
      report.add (if node.effects = [] then [] else [.effectsOnGate node.id]) [] := by
    by_cases heffects : node.effects = []
    · simp [heffects]
    · simp [heffects]
  unfold inspectGate gateDefects kindCautions Node.gateRule
  rw [if_pos hkind, hcarries]
  cases node.gate with
  | none => simp
  | some raw =>
    simp only [Option.map_some]
    cases GateRule.read raw.text with
    | error error => simp
    | ok rule => simp [inspectRule_eq]

theorem inspectOther_eq (hkind : node.kind ≠ .gate) :
    inspectOther node report = report.add [] (kindCautions node) := by
  unfold inspectOther kindCautions
  rw [if_neg hkind]
  by_cases hedges : node.kind = .finish ∧ node.connections ≠ []
  · rw [if_pos hedges, if_pos hedges]
    cases node.gate with
    | none => rfl
    | some raw => exact Validation.add_add
  · rw [if_neg hedges, if_neg hedges, List.append_nil]
    cases node.gate with
    | none => exact Validation.add_nil_nil.symm
    | some raw => rfl

/-- The checks of a node find all that is to be found on it. -/
theorem inspect_eq (report : Validation) (node : Node) :
    contract.inspect node report =
      report.add (contract.nodeDefects node) (kindCautions node) := by
  unfold inspect nodeDefects
  rw [foldl_inspectSlot]
  by_cases hkind : node.kind = .gate
  · rw [if_neg (not_not_intro hkind), if_pos hkind, inspectGate_eq contract hkind, Validation.add_add,
      List.nil_append]
  · rw [if_pos hkind, if_neg hkind, inspectOther_eq hkind, Validation.add_add, List.nil_append]

theorem inspectReached_eq (reachable : IdSet) (report : Validation) (node : Node) :
    contract.inspectReached reachable report node =
      report.add (contract.nodeDefects node) (nodeCautions reachable node) := by
  unfold inspectReached nodeCautions
  rw [inspect_eq]
  by_cases hin : node.id ∈ reachable
  · rw [if_neg (not_not_intro hin), if_pos hin, List.append_nil]
  · rw [if_pos hin, if_neg hin, Validation.add_add, List.append_nil]

/-- **Nothing is lost on the way**: the checks one after the other end in the report. -/
theorem inspectAll_eq : contract.inspectAll = contract.validate := by
  have hstarts : (contract.nodes.any fun node => node.kind = .start) = true ↔ contract.starts ≠ [] := by
    rw [ne_eq, starts_eq_nil_iff]
    simp
  unfold inspectAll validate
  rw [Validation.foldl_eq_add (inspectReached_eq contract contract.reachable)]
  by_cases hnone : contract.starts = []
  · rw [if_neg (fun h => hstarts.1 h hnone), if_pos hnone, Validation.add_add]
    rfl
  · rw [if_pos (hstarts.2 hnone), if_neg hnone]
    rfl

end Contract

/-! ## Reports without findings -/

namespace Contract

/-- Nothing blocks a node, an effect or the whole contract. -/
structure IsWorkable (contract : Contract) : Prop where
  starts : ∃ node ∈ contract.nodes, node.kind = .start
  effects : ∀ node ∈ contract.nodes, ∀ slot ∈ node.effects, ∃ effect, slot.effect = .ok effect
  gates : ∀ node ∈ contract.nodes, node.kind = .gate → node.effects = [] ∧
    ∃ rule, node.gateRule = some (.ok rule) ∧ ∀ ids, rule.demand = .nodes ids →
      ∀ id ∈ ids, ∃ other ∈ contract.nodes, other.id = id

/-- Everything that the contract says matters. -/
structure IsTidy (contract : Contract) : Prop where
  gateTexts : ∀ node ∈ contract.nodes, node.kind ≠ .gate → node.gate = none
  ends : ∀ node ∈ contract.nodes, node.kind = .finish → node.connections = []
  thresholds : ∀ node ∈ contract.nodes, node.kind = .gate → ∀ rule ids,
    node.gateRule = some (.ok rule) → rule.demand = .nodes ids → rule.threshold ≤ ids.size
  routes : ∀ node ∈ contract.nodes, ∃ path, contract.IsRoute path node.id

variable {contract : Contract}

theorem errors_eq_nil_iff : contract.validate.errors = [] ↔ contract.IsWorkable := by
  simp only [List.eq_nil_iff_forall_not_mem, mem_errors_iff]
  constructor
  · intro h
    refine ⟨?_, fun node hmem slot hslot => ?_, fun node hmem hkind => ⟨?_, ?_⟩⟩
    · apply Classical.byContradiction
      intro hnone
      exact h _ (.noStart fun node hmem hkind => hnone ⟨node, hmem, hkind⟩)
    · cases heffect : slot.effect with
      | ok effect => exact ⟨effect, rfl⟩
      | error error => exact absurd (.badEffect hmem hslot heffect) (h _)
    · apply Classical.byContradiction
      intro hcarries
      exact h _ (.effectsOnGate hmem hkind hcarries)
    · cases hgate : node.gate with
      | none => exact absurd (.gateWithoutRule hmem hkind hgate) (h _)
      | some raw =>
        cases hread : GateRule.read raw.text with
        | error error => exact absurd (.badGate hmem hkind hgate hread) (h _)
        | ok rule =>
          have hrule : node.gateRule = some (.ok rule) :=
            Node.gateRule_eq_some_iff.2 ⟨raw, hgate, hread⟩
          refine ⟨rule, hrule, fun ids hdemand id hlisted => ?_⟩
          cases hnode : contract.node? id with
          | none => exact absurd (.unknownGateNode hmem hkind hrule hdemand hlisted hnode) (h _)
          | some other => exact ⟨other, mem_of_node? hnode, id_of_node? hnode⟩
  · intro h defect hdefect
    cases hdefect with
    | noStart hnone =>
      obtain ⟨node, hmem, hkind⟩ := h.starts
      exact hnone node hmem hkind
    | badEffect hmem hslot herror =>
      obtain ⟨effect, heffect⟩ := h.effects _ hmem _ hslot
      cases heffect.symm.trans herror
    | effectsOnGate hmem hkind hcarries => exact hcarries (h.gates _ hmem hkind).1
    | gateWithoutRule hmem hkind hgate =>
      obtain ⟨-, rule, hrule, -⟩ := h.gates _ hmem hkind
      cases (Node.gateRule_eq_none_iff.2 hgate).symm.trans hrule
    | badGate hmem hkind hgate hread =>
      obtain ⟨-, rule, hrule, -⟩ := h.gates _ hmem hkind
      cases (Node.gateRule_eq_some_iff.2 ⟨_, hgate, hread⟩).symm.trans hrule
    | unknownGateNode hmem hkind hrule hdemand hlisted hunknown =>
      obtain ⟨-, rule, hrule', hlist⟩ := h.gates _ hmem hkind
      cases hrule.symm.trans hrule'
      obtain ⟨other, hother, rfl⟩ := hlist _ hdemand _ hlisted
      cases hunknown.symm.trans (node?_of_mem hother)

theorem warnings_eq_nil_iff : contract.validate.warnings = [] ↔ contract.IsTidy := by
  simp only [List.eq_nil_iff_forall_not_mem, mem_warnings_iff]
  constructor
  · intro h
    refine ⟨fun node hmem hkind => ?_, fun node hmem hkind => ?_,
      fun node hmem hkind rule ids hrule hdemand => ?_, fun node hmem => ?_⟩
    · cases hgate : node.gate with
      | none => rfl
      | some raw => exact absurd (.gateIgnored hmem hkind hgate) (h _)
    · apply Classical.byContradiction
      intro hedges
      exact h _ (.edgesFromEnd hmem hkind hedges)
    · apply Nat.le_of_not_lt
      intro hhigh
      exact h _ (.thresholdTooHigh hmem hkind hrule hdemand hhigh)
    · apply Classical.byContradiction
      intro hnone
      exact h _ (.unreachable hmem fun hin => hnone (mem_reachable_iff.1 hin))
  · intro h caution hcaution
    cases hcaution with
    | gateIgnored hmem hkind hgate => cases (h.gateTexts _ hmem hkind).symm.trans hgate
    | edgesFromEnd hmem hkind hedges => exact hedges (h.ends _ hmem hkind)
    | thresholdTooHigh hmem hkind hrule hdemand hhigh =>
      exact Nat.not_lt_of_le (h.thresholds _ hmem hkind _ _ hrule hdemand) hhigh
    | unreachable hmem hunreached => exact hunreached (mem_reachable_iff.2 (h.routes _ hmem))

/-! ## The main statement -/

/-- **The report consists of the violated checks**, each with one finding, in the order of the checks. It has no
errors if and only if the contract is workable, and no warnings if and only if it is tidy. Making the checks one after
the other, with those left out that do not apply, ends in the same report. -/
theorem validate_isExact (contract : Contract) :
    (contract.validate.errors = [] ↔ contract.IsWorkable) ∧
    (contract.validate.warnings = [] ↔ contract.IsTidy) ∧
    (∀ defect, (contract.HasDefect defect → contract.validate.errors.count defect = 1) ∧
      (defect ∈ contract.validate.errors → contract.HasDefect defect)) ∧
    (∀ caution, (contract.HasCaution caution → contract.validate.warnings.count caution = 1) ∧
      (caution ∈ contract.validate.warnings → contract.HasCaution caution)) ∧
    (contract.validate.errors.Pairwise fun x y => x.place.Precedes y.place) ∧
    (contract.validate.warnings.Pairwise fun x y => x.place.Precedes y.place) ∧
    contract.inspectAll = contract.validate := by
  have herrors := pairwise_errors contract
  have hwarnings := pairwise_warnings contract
  refine ⟨errors_eq_nil_iff, warnings_eq_nil_iff, fun defect => ⟨fun h => ?_, mem_errors_iff.1⟩,
    fun caution => ⟨fun h => ?_, mem_warnings_iff.1⟩, herrors, hwarnings, inspectAll_eq contract⟩
  · exact List.count_eq_one_of_mem (FindingPlace.nodup_of_pairwise herrors) (mem_errors_iff.2 h)
  · exact List.count_eq_one_of_mem (FindingPlace.nodup_of_pairwise hwarnings) (mem_warnings_iff.2 h)

end Contract

end PerkGraph
