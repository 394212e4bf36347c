import PerkGraph.Proofs.Stability

/-!
# What transitions keep and what they drop

A transition accounts for the ids that were selected before it, for all of them and for each once
(`SelectionUpdate.Accounts`): what is in effect is kept in the order of choosing, and the rest is reported as
demoted in ascending order. The id that a transition is about is no exception, however stale the selection. A
deselected id is neither kept nor demoted. A selected one was not in the selection at all
(`not_mem_of_select`): the ids in effect are closed, so a requested id that they unlock is one of them, and
selecting it is refused. Main statement: `Contract.transitions_account`.
-/

namespace PerkGraph

/-! ## Accounting for ids -/

/-- The update accounts for the requested ids, given those in effect. The requested ids in effect are kept
in their order, with the picked ids after them; the others are listed as demoted, in ascending order. -/
structure SelectionUpdate.Accounts (update : SelectionUpdate) (requests : List String)
    (effective : IdSet) (picked : List String) : Prop where
  kept : update.selection.ids = (requests.filter fun id => id ∈ effective) ++ picked
  ascending : update.demoted.toList.Pairwise (· < ·)
  dropped : update.demoted.toList.Perm (requests.filter fun id => id ∉ effective)

namespace SelectionUpdate.Accounts

variable {update : SelectionUpdate} {requests picked : List String} {effective : IdSet}

/-- Nothing is lost and nothing is reported twice. -/
theorem perm (h : update.Accounts requests effective picked) :
    (update.selection.ids ++ update.demoted.toList).Perm (requests ++ picked) := by
  let kept := requests.filter fun id => id ∈ effective
  let dropped := requests.filter fun id => id ∉ effective
  have hsplit : (kept ++ dropped).Perm requests := by
    simpa [kept, dropped] using List.filter_append_perm (fun id => decide (id ∈ effective)) requests
  have hmoved : (kept ++ picked ++ update.demoted.toList).Perm (kept ++ dropped ++ picked) := by
    rw [List.append_assoc, List.append_assoc]
    apply List.Perm.append_left
    exact List.perm_append_comm.trans (h.dropped.append_right picked)
  rw [h.kept]
  exact hmoved.trans (hsplit.append_right picked)

/-- An id put at the end of a selection is accounted for as picked. -/
theorem insert (h : update.Accounts requests effective []) {id : String}
    (hid : id ∉ update.selection) :
    ({ update with selection := update.selection.insert id } : SelectionUpdate).Accounts requests
      effective [id] where
  kept := by
    rw [Selection.ids_insert_of_not_mem hid, h.kept, List.append_nil]
  ascending := h.ascending
  dropped := h.dropped

end SelectionUpdate.Accounts

namespace Contract

variable {contract : Contract} {roster : Roster} {selection : Selection} {id : String}
  {update : SelectionUpdate}

/-! ## The three transitions -/

theorem mem_demoted_prune :
    id ∈ (contract.prune roster selection).demoted ↔
      id ∈ selection ∧ id ∉ contract.effective roster selection := by
  simp only [prune, IdSet.mem_filter, Selection.mem_toIdSet, decide_eq_true_eq]

theorem prune_accounts (contract : Contract) (roster : Roster) (selection : Selection) :
    (contract.prune roster selection).Accounts selection.ids (contract.effective roster selection)
      [] where
  kept := (List.append_nil _).symm
  ascending := (contract.prune roster selection).demoted.ascending
  dropped := by
    -- both lists are without repetition, so their members decide
    have hnodup : (contract.prune roster selection).demoted.toList.Nodup := IdSet.nodup_toList _
    rw [List.perm_ext_iff_of_nodup hnodup (selection.nodup.filter _)]
    intro id
    rw [← IdSet.mem_def, mem_demoted_prune, List.mem_filter, decide_eq_true_eq]
    exact Iff.rfl

theorem deselect_accounts (h : contract.deselect roster selection id = .ok update) :
    update.Accounts (selection.erase id).ids (contract.effective roster (selection.erase id)) [] := by
  obtain ⟨-, rfl⟩ := deselect_eq_ok_iff.1 h
  exact contract.prune_accounts roster (selection.erase id)

/-- A requested id that the ids in effect unlock is in effect, so it cannot be selected once more. -/
theorem not_mem_of_select (h : contract.select roster selection id = .ok update) :
    id ∉ selection := by
  obtain ⟨node, hnode, hout, hunlocked, -⟩ := select_eq_ok_iff.1 h
  intro hid
  exact hout (effective_isClosed id hid node hnode hunlocked)

theorem select_accounts (h : contract.select roster selection id = .ok update) :
    update.Accounts selection.ids (contract.effective roster selection) [id] := by
  obtain ⟨node, hnode, hout, hunlocked, rfl⟩ := select_eq_ok_iff.1 h
  exact (contract.prune_accounts roster selection).insert fun hid => hout (mem_prune.1 hid)

/-! ## The main statement -/

/-- **Transitions account for every id**, of any selection, stable or stale. Pruning keeps what is in effect
and reports the rest. Deselecting does so with the selection without the id, which is neither kept nor
reported. Selecting does so with the selection as it was, which the id was no part of, and puts the id at its
end; there is nothing to report if the selection was stable. -/
theorem transitions_account (contract : Contract) (roster : Roster) (selection : Selection) :
    let effective := contract.effective roster selection
    (contract.prune roster selection).Accounts selection.ids effective [] ∧
    (∀ id update, contract.deselect roster selection id = .ok update →
      update.Accounts (selection.ids.erase id)
          (contract.effective roster (selection.erase id)) [] ∧
        id ∉ update.selection ∧ id ∉ update.demoted) ∧
    ∀ id update, contract.select roster selection id = .ok update →
      id ∉ selection ∧ update.Accounts selection.ids effective [id] ∧ id ∉ update.demoted ∧
        (contract.IsStable roster selection → update.demoted = .empty) := by
  intro effective
  refine ⟨contract.prune_accounts roster selection, fun id update hdeselect => ?_,
    fun id update hselect => ?_⟩
  · have haccounts := deselect_accounts hdeselect
    have hgone : id ∉ selection.ids.erase id := selection.nodup.not_mem_erase
    rw [Selection.ids_erase] at haccounts
    refine ⟨haccounts, fun hkept => ?_, fun hdemoted => ?_⟩
    · rw [Selection.mem_def, haccounts.kept, List.append_nil] at hkept
      exact hgone (List.mem_of_mem_filter hkept)
    · rw [IdSet.mem_def, haccounts.dropped.mem_iff] at hdemoted
      exact hgone (List.mem_of_mem_filter hdemoted)
  · have hnew := not_mem_of_select hselect
    have haccounts := select_accounts hselect
    refine ⟨hnew, haccounts, fun hdemoted => ?_, fun hstable => ?_⟩
    · rw [IdSet.mem_def, haccounts.dropped.mem_iff] at hdemoted
      exact hnew (List.mem_of_mem_filter hdemoted)
    · obtain ⟨node, hnode, hout, hunlocked, rfl⟩ := select_eq_ok_iff.1 hselect
      rw [hstable.prune_eq]

/-- A stale selection: `b` waits for `a`, and `ghost` is no node. Selecting `a` drops both, although `a` would
have let `b` stay. -/
theorem transitions_account_stale :
    let contract : Contract :=
      { name := "chain"
        nodes :=
          [.ofRecord { id := "a", connections := ["b"] }, .ofRecord { id := "b" },
            .ofRecord { id := "start", kind := .start, connections := ["a"] }]
        ascending := by decide
        wellFormed := by decide
        closed := by decide }
    let selection : Selection := { ids := ["ghost", "b", "start"], nodup := by decide }
    let update : SelectionUpdate :=
      { selection := { ids := ["start", "a"], nodup := by decide }
        demoted := { toList := ["b", "ghost"], ascending := by decide } }
    contract.select .empty selection "a" = .ok update ∧
      update.Accounts selection.ids (contract.effective .empty selection) ["a"] := by
  intro contract selection update
  have hselect : contract.select .empty selection "a" = .ok update := by
    refine select_eq_ok_iff.2 ⟨.ofRecord { id := "a", connections := ["b"] }, ?_, ?_, ?_, ?_⟩
    all_goals decide +kernel
  obtain ⟨-, haccounts, -, -⟩ :=
    (contract.transitions_account .empty selection).2.2 "a" update hselect
  exact ⟨hselect, haccounts⟩

end Contract

end PerkGraph
