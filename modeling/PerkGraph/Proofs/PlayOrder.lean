import PerkGraph.Proofs.Stability

/-!
# The order of play

Picking nodes one at a time, in any order and with any number of refused attempts, ends where the batch
request ends: once every target is refused, the selection is what is in effect of the start and all targets
together (`attempts_confluent`). A selection on the way is stable, lies above the start, and holds nothing
but the start and targets (`IsPlay`). The sets that can be played from nothing are the stable ones: the order
in which the passes retain nodes is one in which they can be picked without a refusal (`exists_selectAll`).
-/

namespace PerkGraph

namespace Selection

/-- The selection with the ids of a list put at its end, one by one. -/
def insertAll (s : Selection) (ids : List String) : Selection :=
  ids.foldl insert s

theorem insertAll_empty (ids : List String) : empty.insertAll ids = ofList ids := rfl

theorem mem_insertAll {s : Selection} {ids : List String} {x : String} :
    x ∈ s.insertAll ids ↔ x ∈ s ∨ x ∈ ids := by
  unfold insertAll
  induction ids generalizing s with
  | nil => simp
  | cons y rest ih => rw [List.foldl_cons, ih, mem_insert, List.mem_cons, or_assoc]

theorem mem_ofList {ids : List String} {x : String} : x ∈ ofList ids ↔ x ∈ ids := by
  rw [← insertAll_empty, mem_insertAll]
  exact or_iff_right List.not_mem_nil

end Selection

namespace Contract

/-! ## Attempts -/

/-- The selection after an attempt to select an id: as it was, if the attempt is refused. -/
def attempt (contract : Contract) (roster : Roster) (selection : Selection) (id : String) :
    Selection :=
  match contract.select roster selection id with
  | .ok update => update.selection
  | .error _ => selection

/-- The selection after attempts one after another. -/
def attempts (contract : Contract) (roster : Roster) (selection : Selection) (ids : List String) :
    Selection :=
  ids.foldl (contract.attempt roster) selection

/-- The selection after selecting ids one after another, if none of them is refused. -/
def selectAll (contract : Contract) (roster : Roster) (selection : Selection) (ids : List String) :
    Except TransitionError Selection :=
  ids.foldlM (fun chosen id =>
    (contract.select roster chosen id).map SelectionUpdate.selection) selection

section Attempts

variable {contract : Contract} {roster : Roster} {start selection : Selection} {targets : IdSet}

/-- A selection that play from `start` towards `targets` may pass through. -/
structure IsPlay (contract : Contract) (roster : Roster) (start : Selection) (targets : IdSet)
    (selection : Selection) : Prop where
  stable : contract.IsStable roster selection
  above : ∀ x ∈ start, x ∈ selection
  within : ∀ x ∈ selection, x ∈ start ∨ x ∈ targets

theorem IsStable.select_eq_ok_iff (h : contract.IsStable roster selection) {id : String}
    {update : SelectionUpdate} :
    contract.select roster selection id = .ok update ↔
      ∃ node, contract.node? id = some node ∧ id ∉ selection ∧
        contract.isUnlocked roster node selection.toIdSet = true ∧
        update = { selection := selection.insert id, demoted := .empty } := by
  rw [Contract.select_eq_ok_iff, h.prune_eq, h]
  simp only [Selection.mem_toIdSet]

theorem IsPlay.attempt (h : contract.IsPlay roster start targets selection) {id : String}
    (hid : id ∈ targets) :
    contract.IsPlay roster start targets (contract.attempt roster selection id) := by
  unfold Contract.attempt
  cases hselect : contract.select roster selection id with
  | error error => exact h
  | ok update =>
    obtain ⟨node, -, -, -, rfl⟩ := h.stable.select_eq_ok_iff.1 hselect
    refine ⟨select_isStable hselect, fun x hx => ?_, fun x hx => ?_⟩
    · exact Selection.mem_insert.2 (.inl (h.above x hx))
    · rcases Selection.mem_insert.1 hx with hx | rfl
      · exact h.within x hx
      · exact .inr hid

theorem IsPlay.attempts (h : contract.IsPlay roster start targets selection) {ids : List String}
    (hids : ∀ id ∈ ids, id ∈ targets) :
    contract.IsPlay roster start targets (contract.attempts roster selection ids) := by
  unfold Contract.attempts
  induction ids generalizing selection with
  | nil => exact h
  | cons id rest ih =>
    exact ih (h.attempt (hids id List.mem_cons_self)) fun x hx => hids x (List.mem_cons_of_mem _ hx)

/-- What is stable within the request is in effect of the request. -/
theorem IsPlay.toIdSet_subset (h : contract.IsPlay roster start targets selection) :
    selection.toIdSet ⊆ contract.effective roster (start.insertAll targets.toList) := by
  have hle : contract.effective roster selection ⊆
      contract.effective roster (start.insertAll targets.toList) :=
    effective_mono fun x hx => Selection.mem_insertAll.2 (h.within x hx)
  rwa [h.stable] at hle

/-- The selection refuses every target. -/
def RefusesAll (contract : Contract) (roster : Roster) (selection : Selection) (targets : IdSet) :
    Prop :=
  ∀ id ∈ targets, ∃ error, contract.select roster selection id = .error error

instance : Decidable (contract.RefusesAll roster selection targets) :=
  decidable_of_iff (∀ id ∈ targets.toList, (contract.select roster selection id).isOk = false) <| by
    refine forall₂_congr fun id _ => ?_
    cases contract.select roster selection id <;> simp [Except.isOk, Except.toBool]

/-- A play has reached what is in effect of the whole request once every target is refused, and not
before. -/
theorem IsPlay.toIdSet_eq_iff (h : contract.IsPlay roster start targets selection) :
    selection.toIdSet = contract.effective roster (start.insertAll targets.toList) ↔
      contract.RefusesAll roster selection targets := by
  constructor
  · intro heq id hid
    cases hselect : contract.select roster selection id with
    | error error => exact ⟨error, rfl⟩
    | ok update =>
      -- a target that could still be picked would be in effect already
      obtain ⟨node, hnode, hout, hunlocked, -⟩ := h.stable.select_eq_ok_iff.1 hselect
      rw [heq] at hunlocked
      have hin := effective_isClosed id (Selection.mem_insertAll.2 (.inr hid)) node hnode hunlocked
      rw [← heq, Selection.mem_toIdSet] at hin
      exact absurd hin hout
  · intro hrefused
    -- the play is closed under the request, as an unlocked target could still be picked
    refine IdSet.subset_antisymm h.toIdSet_subset (effective_subset_of_isClosed ?_)
    intro id hid node hnode hunlocked
    rw [Selection.mem_toIdSet]
    rcases Selection.mem_insertAll.1 hid with hid | hid
    · exact h.above id hid
    · by_cases hin : id ∈ selection
      · exact hin
      · obtain ⟨error, herror⟩ := hrefused id hid
        rw [h.stable.select_eq_ok_iff.2 ⟨node, hnode, hin, hunlocked, rfl⟩] at herror
        cases herror

/-! ### Without a refusal -/

theorem selectAll_cons_eq_ok_iff {id : String} {rest : List String} {final : Selection} :
    contract.selectAll roster start (id :: rest) = .ok final ↔
      ∃ update, contract.select roster start id = .ok update ∧
        contract.selectAll roster update.selection rest = .ok final := by
  unfold selectAll
  rw [List.foldlM_cons]
  cases hselect : contract.select roster start id with
  | error error =>
    constructor
    · intro h
      cases h
    · rintro ⟨update, hupdate, -⟩
      cases hupdate
  | ok update =>
    constructor
    · intro h
      exact ⟨update, rfl, h⟩
    · rintro ⟨other, hother, h⟩
      cases hother
      exact h

theorem selectAll_append_singleton {ids : List String} {id : String} {middle : Selection}
    {update : SelectionUpdate} (h : contract.selectAll roster start ids = .ok middle)
    (hselect : contract.select roster middle id = .ok update) :
    contract.selectAll roster start (ids ++ [id]) = .ok update.selection := by
  induction ids generalizing start with
  | nil =>
    cases h
    exact selectAll_cons_eq_ok_iff.2 ⟨update, hselect, rfl⟩
  | cons first rest ih =>
    obtain ⟨next, hnext, hrest⟩ := selectAll_cons_eq_ok_iff.1 h
    exact selectAll_cons_eq_ok_iff.2 ⟨next, hnext, ih hrest⟩

theorem attempts_of_selectAll {ids : List String} {final : Selection}
    (h : contract.selectAll roster start ids = .ok final) :
    contract.attempts roster start ids = final := by
  induction ids generalizing start with
  | nil =>
    cases h
    rfl
  | cons id rest ih =>
    obtain ⟨update, hupdate, hrest⟩ := selectAll_cons_eq_ok_iff.1 h
    rw [Contract.attempts, List.foldl_cons, attempt, hupdate]
    exact ih hrest

/-- From a stable selection, ids that are all accepted are put at its end one by one. -/
theorem IsStable.ids_selectAll (hstable : contract.IsStable roster start) {ids : List String}
    {final : Selection} (h : contract.selectAll roster start ids = .ok final) :
    contract.IsStable roster final ∧ final.ids = start.ids ++ ids := by
  induction ids generalizing start with
  | nil =>
    cases h
    exact ⟨hstable, (List.append_nil _).symm⟩
  | cons id rest ih =>
    obtain ⟨update, hupdate, hrest⟩ := selectAll_cons_eq_ok_iff.1 h
    obtain ⟨hfinal, hids⟩ := ih (select_isStable hupdate) hrest
    obtain ⟨node, -, hout, -, rfl⟩ := hstable.select_eq_ok_iff.1 hupdate
    refine ⟨hfinal, ?_⟩
    rw [hids, Selection.ids_insert_of_not_mem hout, List.append_assoc, List.singleton_append]

/-- The targets in effect of the whole request can be selected one after another: the order in which the
passes retain nodes is one in which none of them is refused. -/
theorem exists_selectAll (hstable : contract.IsStable roster start) (targets : IdSet) :
    ∃ ids final, (∀ id ∈ ids, id ∈ targets) ∧ contract.selectAll roster start ids = .ok final ∧
      final.toIdSet = contract.effective roster (start.insertAll targets.toList) := by
  have hstart : contract.IsPlay roster start targets start :=
    ⟨hstable, fun _ hx => hx, fun _ hx => .inl hx⟩
  -- whatever the passes have retained so far can be selected
  have hreach : ∃ ids final, (∀ id ∈ ids, id ∈ targets) ∧
      contract.selectAll roster start ids = .ok final ∧
      contract.effective roster (start.insertAll targets.toList) ⊆ final.toIdSet := by
    refine effective_induction (P := fun s => ∃ ids final, (∀ id ∈ ids, id ∈ targets) ∧
      contract.selectAll roster start ids = .ok final ∧ s ⊆ final.toIdSet)
      ⟨[], start, fun _ hx => absurd hx List.not_mem_nil, rfl, IdSet.empty_subset _⟩ ?_
    rintro s id node hid hnode - hunlocked ⟨ids, final, hids, hfinal, hs⟩
    obtain ⟨hstablefinal, happended⟩ := hstable.ids_selectAll hfinal
    by_cases hin : id ∈ final
    · refine ⟨ids, final, hids, hfinal, fun x hx => ?_⟩
      rcases IdSet.mem_insert.1 hx with rfl | hx
      · exact Selection.mem_toIdSet.2 hin
      · exact hs x hx
    · have htarget : id ∈ targets := by
        rcases Selection.mem_insertAll.1 hid with hid | hid
        · rw [Selection.mem_def, happended] at hin
          exact absurd (List.mem_append_left ids hid) hin
        · exact hid
      have hselect := hstablefinal.select_eq_ok_iff.2
        ⟨node, hnode, hin, isUnlocked_mono hs hunlocked, rfl⟩
      refine ⟨ids ++ [id], _, fun x hx => ?_, selectAll_append_singleton hfinal hselect,
        fun x hx => ?_⟩
      · rcases List.mem_append.1 hx with hx | hx
        · exact hids x hx
        · exact List.mem_singleton.1 hx ▸ htarget
      · rw [Selection.mem_toIdSet]
        rcases IdSet.mem_insert.1 hx with rfl | hx
        · exact Selection.mem_insert.2 (.inr rfl)
        · exact Selection.mem_insert.2 (.inl (Selection.mem_toIdSet.1 (hs x hx)))
  obtain ⟨ids, final, hids, hfinal, hsub⟩ := hreach
  have hplay : contract.IsPlay roster start targets final :=
    attempts_of_selectAll hfinal ▸ hstart.attempts hids
  exact ⟨ids, final, hids, hfinal, IdSet.subset_antisymm hplay.toIdSet_subset hsub⟩

/-- Some attempts on targets reach what is in effect of the whole request. -/
theorem exists_attempts (hstable : contract.IsStable roster start) (targets : IdSet) :
    ∃ ids, (∀ id ∈ ids, id ∈ targets) ∧ (contract.attempts roster start ids).toIdSet =
      contract.effective roster (start.insertAll targets.toList) := by
  obtain ⟨ids, final, hids, hfinal, heq⟩ := exists_selectAll hstable targets
  exact ⟨ids, hids, attempts_of_selectAll hfinal ▸ heq⟩

end Attempts

/-! ## Play from nothing -/

/-- A selection that successful picks lead to from nothing. -/
inductive Played (contract : Contract) (roster : Roster) : Selection → Prop
  | nothing : Played contract roster .empty
  | pick {selection : Selection} {id : String} {update : SelectionUpdate}
      (h : Played contract roster selection)
      (hselect : contract.select roster selection id = .ok update) :
      Played contract roster update.selection

section Play

variable {contract : Contract} {roster : Roster} {selection : Selection}

theorem Played.isStable (h : contract.Played roster selection) :
    contract.IsStable roster selection := by
  cases h with
  | nothing => exact isStable_empty
  | pick _ hselect => exact select_isStable hselect

theorem Played.attempts (h : contract.Played roster selection) (ids : List String) :
    contract.Played roster (contract.attempts roster selection ids) := by
  unfold Contract.attempts
  induction ids generalizing selection with
  | nil => exact h
  | cons id rest ih =>
    refine ih ?_
    unfold attempt
    cases hselect : contract.select roster selection id with
    | error error => exact h
    | ok update => exact h.pick hselect

end Play

/-! ## The main statement -/

/-- **Play is confluent.** From a stable selection some attempts on the targets lead to a selection that
refuses every target, and all that do reach one set, whatever their order: what is in effect of the start
and the targets together. The sets that successful picks reach from nothing are those that are in effect as
a whole. -/
theorem attempts_confluent (contract : Contract) (roster : Roster) :
    (∀ start, contract.IsStable roster start → ∀ targets : IdSet,
      (∃ ids, (∀ id ∈ ids, id ∈ targets) ∧
        contract.RefusesAll roster (contract.attempts roster start ids) targets) ∧
      ∀ ids, (∀ id ∈ ids, id ∈ targets) →
        contract.RefusesAll roster (contract.attempts roster start ids) targets →
        (contract.attempts roster start ids).toIdSet =
          contract.effective roster (start.insertAll targets.toList)) ∧
    ∀ s : IdSet, (∃ played, contract.Played roster played ∧ played.toIdSet = s) ↔
      contract.effective roster (.ofList s.toList) = s := by
  constructor
  · intro start hstable targets
    have hplay : ∀ ids, (∀ id ∈ ids, id ∈ targets) →
        contract.IsPlay roster start targets (contract.attempts roster start ids) :=
      fun ids hids => IsPlay.attempts ⟨hstable, fun _ hx => hx, fun _ hx => .inl hx⟩ hids
    constructor
    · obtain ⟨ids, hids, heq⟩ := exists_attempts hstable targets
      exact ⟨ids, hids, (hplay ids hids).toIdSet_eq_iff.1 heq⟩
    · intro ids hids hrefused
      exact (hplay ids hids).toIdSet_eq_iff.2 hrefused
  · intro s
    constructor
    · rintro ⟨played, hplayed, rfl⟩
      rw [effective_congr (t := played) fun x => ?_]
      · exact hplayed.isStable
      · rw [Selection.mem_ofList, ← IdSet.mem_def, Selection.mem_toIdSet]
    · intro h
      have hempty : contract.IsStable roster .empty := isStable_empty
      obtain ⟨ids, -, heq⟩ := exists_attempts hempty s
      rw [Selection.insertAll_empty, h] at heq
      exact ⟨_, Played.nothing.attempts ids, heq⟩

/-- Two plays with refused attempts on the way, a target that is no node among them. They select `a` and `b`
in opposite orders, the gate after both, and reach one set. -/
theorem attempts_confluent_orders :
    let contract : Contract :=
      { name := "heist"
        nodes :=
          [.ofRecord { id := "a", connections := ["gate"] },
            .ofRecord { id := "b", connections := ["gate"] },
            .ofRecord { id := "gate", kind := .gate, gate := some "Node:a,b;0" },
            .ofRecord { id := "start", kind := .start, connections := ["a", "b"] }]
        ascending := by decide
        wellFormed := by decide
        closed := by decide }
    let start : Selection := { ids := ["start"], nodup := by decide }
    let targets : IdSet := { toList := ["a", "b", "gate", "ghost"], ascending := by decide }
    let first := contract.attempts .empty start ["gate", "a", "gate", "b", "gate"]
    let second := contract.attempts .empty start ["b", "ghost", "a", "gate"]
    contract.IsStable .empty start ∧
      first.ids = ["start", "a", "b", "gate"] ∧ second.ids = ["start", "b", "a", "gate"] ∧
      contract.RefusesAll .empty first targets ∧ contract.RefusesAll .empty second targets ∧
      first.toIdSet = contract.effective .empty (start.insertAll targets.toList) ∧
      second.toIdSet = contract.effective .empty (start.insertAll targets.toList) := by
  intro contract start targets first second
  have hstable : contract.IsStable .empty start := by decide +kernel
  have hfirst : contract.RefusesAll .empty first targets := by decide +kernel
  have hsecond : contract.RefusesAll .empty second targets := by decide +kernel
  obtain ⟨-, hreach⟩ := (attempts_confluent contract .empty).1 start hstable targets
  exact ⟨hstable, by decide +kernel, by decide +kernel, hfirst, hsecond,
    hreach _ (by decide) hfirst, hreach _ (by decide) hsecond⟩

end Contract

end PerkGraph
