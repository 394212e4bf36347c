import PerkGraph.Proofs.Stability
import PerkGraph.Session

/-!
# Runs of a session

Raw insertions and changes of the team may leave a session with ids that are not in effect. Every other
accepted step repairs it: the selection is stable afterwards, under the team of that moment
(`step_isStable`), whatever the steps before it did. A refused step leaves the session as it was.
-/

namespace PerkGraph

/-- The slots of a roster are listed in order. -/
theorem Roster.slots_toList (roster : Roster) : roster.toList.map Assignment.slot = [0, 1, 2] := rfl

namespace Session

variable {contract : Contract} {session changed : Session} {step : SessionStep} {demoted : IdSet}

/-! ## One step -/

/-- An accepted step other than a raw insertion leaves a stable selection. -/
theorem step_isStable (h : session.step contract step = .ok (changed, demoted))
    (hraw : ∀ id, step ≠ .insert id) : contract.IsStable changed.roster changed.selection := by
  cases step with
  | select id =>
    simp only [Session.step] at h
    cases hselect : contract.select session.roster session.selection id with
    | error error => simp [hselect] at h
    | ok update =>
      simp only [hselect, withUpdate, Except.ok.injEq, Prod.mk.injEq] at h
      obtain ⟨rfl, -⟩ := h
      exact Contract.select_isStable hselect
  | deselect id =>
    simp only [Session.step] at h
    cases hdeselect : contract.deselect session.roster session.selection id with
    | error error => simp [hdeselect] at h
    | ok update =>
      simp only [hdeselect, withUpdate, Except.ok.injEq, Prod.mk.injEq] at h
      obtain ⟨rfl, -⟩ := h
      exact Contract.deselect_isStable hdeselect
  | prune =>
    simp only [Session.step, withUpdate, Except.ok.injEq, Prod.mk.injEq] at h
    obtain ⟨rfl, -⟩ := h
    exact Contract.prune_isStable
  | setRunner assignment =>
    simp only [Session.step] at h
    cases hset : session.roster.set assignment with
    | error error => simp [hset] at h
    | ok roster =>
      simp only [hset, withUpdate, Except.ok.injEq, Prod.mk.injEq] at h
      obtain ⟨rfl, -⟩ := h
      exact Contract.prune_isStable
  | insert id => exact absurd rfl (hraw id)

theorem next_of_ok (h : session.step contract step = .ok (changed, demoted)) :
    session.next contract step = changed := by
  rw [next, h]

theorem next_of_error {error : StepError} (h : session.step contract step = .error error) :
    session.next contract step = session := by
  rw [next, h]

/-! ## Runs -/

theorem run_append_singleton (initial : Session) (earlier : List SessionStep) (step : SessionStep) :
    initial.run contract (earlier ++ [step]) = (initial.run contract earlier).next contract step := by
  simp only [run, List.foldl_append, List.foldl_cons, List.foldl_nil]

/-- **What holds after every step of a run**, from any session and in any order of steps: no id is selected
twice and every slot has its runner; an accepted step other than a raw insertion leaves a stable selection
of nodes; a refused step changes neither selection nor team. -/
theorem run_invariant (contract : Contract) (initial : Session) (earlier : List SessionStep)
    (step : SessionStep) :
    let before := initial.run contract earlier
    let after := initial.run contract (earlier ++ [step])
    after.selection.ids.Nodup ∧
    after.roster.toList.map Assignment.slot = [0, 1, 2] ∧
    (∀ changed demoted, before.step contract step = .ok (changed, demoted) →
      after = changed ∧
      ((∀ id, step ≠ .insert id) →
        contract.IsStable after.roster after.selection ∧
        ∀ id ∈ after.selection, ∃ node, contract.node? id = some node)) ∧
    ∀ error, before.step contract step = .error error → after = before := by
  intro before after
  have hafter : after = before.next contract step := run_append_singleton initial earlier step
  refine ⟨after.selection.nodup, after.roster.slots_toList, ?_, ?_⟩
  · intro changed demoted hstep
    have hchanged : after = changed := hafter.trans (next_of_ok hstep)
    refine ⟨hchanged, fun hraw => ?_⟩
    have hstable : contract.IsStable after.roster after.selection :=
      hchanged ▸ step_isStable hstep hraw
    exact ⟨hstable, fun id hid => hstable.exists_node hid⟩
  · intro error hstep
    exact hafter.trans (next_of_error hstep)

/-- Two raw insertions, the second of an id that names no node, leave a selection that is not stable. Selecting a
start repairs it; selecting the id that names no node is refused. -/
theorem run_invariant_repaired :
    let contract : Contract :=
      { name := "heist"
        nodes :=
          [.ofRecord { id := "start", kind := .start, connections := ["vault"] },
            .ofRecord { id := "vault" }]
        ascending := by decide
        wellFormed := by decide
        closed := by decide }
    let initial : Session := {}
    let raw : List SessionStep := [.insert "vault", .insert "ghost"]
    let before := initial.run contract raw
    let after := initial.run contract (raw ++ [.select "start"])
    ¬contract.IsStable before.roster before.selection ∧
      after = { selection := Selection.empty.insert "start" } ∧
      contract.IsStable after.roster after.selection ∧
      initial.run contract (raw ++ [.select "start"] ++ [.select "ghost"]) = after := by
  intro contract initial raw before after
  have hstep : before.step contract (.select "start") =
      .ok ({ selection := Selection.empty.insert "start" }, (IdSet.empty.insert "vault").insert "ghost") := by
    decide +kernel
  have hrefused : after.step contract (.select "ghost") =
      .error (.transition (.unknownNode "ghost")) := by decide +kernel
  obtain ⟨-, -, haccepted, -⟩ := run_invariant contract initial raw (.select "start")
  obtain ⟨hafter, hrepaired⟩ := haccepted _ _ hstep
  obtain ⟨-, -, -, hunchanged⟩ :=
    run_invariant contract initial (raw ++ [.select "start"]) (.select "ghost")
  exact ⟨by decide +kernel, hafter, (hrepaired fun _ => nofun).1, hunchanged _ hrefused⟩

end Session

end PerkGraph
