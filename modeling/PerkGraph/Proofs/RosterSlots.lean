import Mathlib.Data.List.FinRange
import Mathlib.Data.List.Nodup
import PerkGraph.Proofs.StoredForms
import PerkGraph.Proofs.TextGrammar

/-!
# Who stands in which slot

Assignments fill a roster if and only if their slots exist and are distinct (`Roster.HaveSlots`). Then every listed
runner is in its slot and nobody in the others (`Roster.Filled`), which leaves no room for the order in which they
are listed. Otherwise there is one error to report, of the first assignment that is to blame, and whether its slot
exists comes before whether it is taken (`Roster.BadAssignment`).

A roster may also be kept as a plain list of assignments, which is read and written by position (`Lineup`). Nothing
in its type says how many there are or which stands where. But no operation ever asks for a position that does not
exist, and whatever the operations were, there is one assignment for each slot, at the position of the slot
(`Lineup.run?_eq`).
-/

namespace PerkGraph

namespace Roster

variable {roster next : Roster} {assignment : Assignment} {front rest assignments : List Assignment}
  {error : RosterError}

/-! ## Runners in their slots -/

theorem getElem?_toList (roster : Roster) (slot : Nat) :
    roster.toList[slot]? = roster.runners[slot]?.map fun runner => { slot, runner } := by
  by_cases h : slot < rosterSlots
  · have hget (slot : Fin rosterSlots) : roster.runners.get slot = roster.runners[slot.val] := rfl
    simp [toList, h, hget]
  · simp [toList, h]

theorem mem_toList : assignment ∈ roster.toList ↔
    roster.toList[assignment.slot]? = some assignment := by
  constructor
  · intro h
    obtain ⟨slot, hslot⟩ := List.mem_iff_getElem?.1 h
    have hentry := hslot
    rw [getElem?_toList, Option.map_eq_some_iff] at hentry
    obtain ⟨runner, -, rfl⟩ := hentry
    exact hslot
  · exact List.mem_of_getElem?

theorem length_toList (roster : Roster) : roster.toList.length = rosterSlots := by
  simp [toList]

theorem toList_injective : Function.Injective toList := by
  intro roster other h
  obtain ⟨runners⟩ := roster
  obtain ⟨others⟩ := other
  congr 1
  ext slot hslot
  have hentry := congrArg (fun entries : List Assignment => entries[slot]?) h
  simpa [getElem?_toList, hslot] using hentry

theorem toList_set (roster : Roster) (h : assignment.slot < rosterSlots) :
    toList { runners := roster.runners.set assignment.slot assignment.runner h } =
      roster.toList.set assignment.slot assignment := by
  apply List.ext_getElem?
  intro slot
  simp only [getElem?_toList, List.getElem?_set, Vector.getElem?_set, length_toList, h, if_true]
  split
  · rename_i heq
    simp [← heq]
  · rfl

/-! ## Setting one runner -/

/-- A runner is put into its slot, and the other slots keep theirs. -/
theorem set_eq_ok_iff : roster.set assignment = .ok next ↔
    assignment.slot < rosterSlots ∧ next.toList = roster.toList.set assignment.slot assignment := by
  unfold set
  by_cases h : assignment.slot < rosterSlots
  · rw [dif_pos h, Except.ok.injEq, ← toList_set roster h]
    exact ⟨fun heq => ⟨h, heq ▸ rfl⟩, fun ⟨_, heq⟩ => (toList_injective heq).symm⟩
  · rw [dif_neg h]
    exact ⟨nofun, fun ⟨hslot, _⟩ => absurd hslot h⟩

theorem set_eq_error_iff : roster.set assignment = .error error ↔
    rosterSlots ≤ assignment.slot ∧ error = .slotOutOfRange assignment.slot := by
  unfold set
  by_cases h : assignment.slot < rosterSlots
  · rw [dif_pos h]
    exact ⟨nofun, fun ⟨hslot, _⟩ => absurd h (Nat.not_lt.2 hslot)⟩
  · rw [dif_neg h, Except.error.injEq, eq_comm]
    exact (and_iff_right (Nat.not_lt.1 h)).symm

theorem exists_set (h : assignment.slot < rosterSlots) : ∃ next, roster.set assignment = .ok next ∧
    next.toList = roster.toList.set assignment.slot assignment :=
  ⟨_, dif_pos h, toList_set roster h⟩

/-! ## Filling -/

/-- The slots of the assignments are there, and each is taken once. -/
structure HaveSlots (assignments : List Assignment) : Prop where
  inRange : ∀ assignment ∈ assignments, assignment.slot < rosterSlots
  distinct : (assignments.map Assignment.slot).Nodup

/-- Every listed runner is in its slot, and nobody is in the others. -/
structure Filled (assignments : List Assignment) (roster : Roster) : Prop extends HaveSlots assignments where
  seated : ∀ assignment ∈ assignments, assignment ∈ roster.toList
  vacant : ∀ entry ∈ roster.toList, entry.slot ∉ assignments.map Assignment.slot → entry.runner = .nobody

/-- What can be wrong with an assignment behind those in front of it. -/
inductive BadAssignment (front : List Assignment) (assignment : Assignment) : RosterError → Prop
  | slotOutOfRange (h : rosterSlots ≤ assignment.slot) :
      BadAssignment front assignment (.slotOutOfRange assignment.slot)
  | duplicateSlot (hslot : assignment.slot < rosterSlots)
      (hfront : assignment.slot ∈ front.map Assignment.slot) :
      BadAssignment front assignment (.duplicateSlot assignment.slot)

theorem filled_nil : Filled [] .empty where
  inRange _ h := absurd h List.not_mem_nil
  distinct := .nil
  seated _ h := absurd h List.not_mem_nil
  vacant entry h _ := by
    rw [mem_toList, getElem?_toList] at h
    simp only [empty, Option.map_eq_some_iff, Vector.getElem?_replicate] at h
    obtain ⟨runner, hrunner, heq⟩ := h
    split at hrunner
    · cases hrunner
      exact heq ▸ rfl
    · cases hrunner

theorem Filled.entry_eq_nobody {slot : Nat} (h : Filled assignments roster) (hslot : slot < rosterSlots)
    (hfree : slot ∉ assignments.map Assignment.slot) :
    roster.toList[slot]? = some { slot, runner := .nobody } := by
  have hentry : roster.toList[slot]? = some { slot, runner := roster.runners[slot] } := by
    rw [getElem?_toList, Vector.getElem?_eq_getElem hslot]
    rfl
  have hvacant : roster.runners[slot] = .nobody := h.vacant _ (List.mem_of_getElem? hentry) hfree
  rw [hentry, hvacant]

theorem Filled.unique (h : Filled assignments roster) (h' : Filled assignments next) : roster = next := by
  refine toList_injective (List.ext_getElem? fun slot => ?_)
  by_cases hlisted : slot ∈ assignments.map Assignment.slot
  · obtain ⟨assignment, hassignment, rfl⟩ := List.mem_map.1 hlisted
    rw [mem_toList.1 (h.seated assignment hassignment), mem_toList.1 (h'.seated assignment hassignment)]
  · by_cases hslot : slot < rosterSlots
    · rw [h.entry_eq_nobody hslot hlisted, h'.entry_eq_nobody hslot hlisted]
    · rw [getElem?_toList, getElem?_toList]
      simp [hslot]

/-- A filled roster and one more assignment. -/
theorem Filled.append (h : Filled front roster) (hslot : assignment.slot < rosterSlots)
    (hfront : assignment.slot ∉ front.map Assignment.slot)
    (hnext : next.toList = roster.toList.set assignment.slot assignment) :
    Filled (front ++ [assignment]) next := by
  have hself : assignment ∈ next.toList := by
    rw [mem_toList, hnext, List.getElem?_set_self (by rwa [length_toList])]
  have hother : ∀ entry : Assignment, entry.slot ≠ assignment.slot →
      (entry ∈ next.toList ↔ entry ∈ roster.toList) := by
    intro entry hne
    rw [mem_toList, mem_toList, hnext, List.getElem?_set_ne hne.symm]
  refine ⟨⟨?_, ?_⟩, ?_, ?_⟩
  · simpa [or_imp, forall_and] using ⟨h.inRange, hslot⟩
  · rw [List.map_append, List.map_singleton]
    exact List.concat_eq_append ▸ h.distinct.concat hfront
  · intro entry hentry
    rcases List.mem_append.1 hentry with hentry | hentry
    · have hne : entry.slot ≠ assignment.slot := fun heq =>
        hfront (heq ▸ List.mem_map_of_mem hentry)
      exact (hother entry hne).2 (h.seated entry hentry)
    · exact List.mem_singleton.1 hentry ▸ hself
  · intro entry hentry hnew
    rw [List.map_append, List.mem_append, not_or, List.map_singleton, List.mem_singleton] at hnew
    exact h.vacant entry ((hother entry hnew.2).1 hentry) hnew.1

theorem BadAssignment.not_haveSlots (h : BadAssignment front assignment error) :
    ¬HaveSlots (front ++ assignment :: rest) := by
  intro hslots
  cases h with
  | slotOutOfRange hout => exact absurd (hslots.inRange assignment (by simp)) (Nat.not_lt.2 hout)
  | duplicateSlot _ hfront =>
    have hdistinct := hslots.distinct
    rw [List.map_append, List.map_cons, List.nodup_append] at hdistinct
    exact hdistinct.2.2 assignment.slot hfront assignment.slot List.mem_cons_self rfl

/-! ### One by one -/

/-- The slots that the assignments take, last one first. -/
def taken (assignments : List Assignment) : List Nat :=
  (assignments.map Assignment.slot).reverse

theorem taken_append_singleton (front : List Assignment) (assignment : Assignment) :
    taken (front ++ [assignment]) = assignment.slot :: taken front := by
  simp [taken]

/-- One step: an assignment that is to blame is the error, and any other is seated. -/
theorem fill_cons (h : Filled front roster) :
    (∃ found, (∀ error, BadAssignment front assignment error ↔ error = found) ∧
      fill (assignment :: rest) (taken front) roster = .error found) ∨
    (∀ error, ¬BadAssignment front assignment error) ∧ ∃ next, roster.set assignment = .ok next ∧
      Filled (front ++ [assignment]) next ∧
      fill (assignment :: rest) (taken front) roster = fill rest (taken (front ++ [assignment])) next := by
  have htaken : assignment.slot ∈ taken front ↔ assignment.slot ∈ front.map Assignment.slot :=
    List.mem_reverse
  rw [fill, taken_append_singleton]
  by_cases hslot : assignment.slot < rosterSlots
  · obtain ⟨next, hset, hnext⟩ : ∃ next, roster.set assignment = .ok next ∧
        next.toList = roster.toList.set assignment.slot assignment := exists_set hslot
    rw [hset]
    by_cases hfront : assignment.slot ∈ front.map Assignment.slot
    · refine .inl ⟨.duplicateSlot assignment.slot, fun error => ⟨fun hbad => ?_, ?_⟩, ?_⟩
      · cases hbad with
        | slotOutOfRange hout => exact absurd hslot (Nat.not_lt.2 hout)
        | duplicateSlot _ _ => rfl
      · rintro rfl
        exact .duplicateSlot hslot hfront
      · exact if_pos (htaken.2 hfront)
    · refine .inr ⟨fun error hbad => ?_, next, rfl, h.append hslot hfront hnext, ?_⟩
      · cases hbad with
        | slotOutOfRange hout => exact absurd hslot (Nat.not_lt.2 hout)
        | duplicateSlot _ hfront' => exact hfront hfront'
      · exact if_neg fun hmem => hfront (htaken.1 hmem)
  · have hout := Nat.not_lt.1 hslot
    refine .inl ⟨.slotOutOfRange assignment.slot, fun error => ⟨fun hbad => ?_, ?_⟩, ?_⟩
    · cases hbad with
      | slotOutOfRange _ => rfl
      | duplicateSlot hslot' _ => exact absurd hslot' hslot
    · rintro rfl
      exact .slotOutOfRange hout
    · rw [set_eq_error_iff.2 ⟨hout, rfl⟩]
      rfl

theorem fill_eq_ok_iff (h : Filled front roster) :
    fill rest (taken front) roster = .ok next ↔ Filled (front ++ rest) next := by
  induction rest generalizing front roster with
  | nil =>
    rw [List.append_nil, fill, Except.ok.injEq]
    constructor
    · rintro rfl
      exact h
    · exact h.unique
  | cons assignment rest ih =>
    rcases fill_cons h with ⟨found, hbad, herror⟩ | ⟨-, later, -, hlater, hstep⟩
    · rw [herror]
      refine ⟨nofun, fun hfilled => ?_⟩
      exact absurd hfilled.toHaveSlots ((hbad found).2 rfl).not_haveSlots
    · rw [hstep, ih hlater, List.append_assoc, List.singleton_append]

theorem fill_eq_error_iff (h : Filled front roster) :
    fill rest (taken front) roster = .error error ↔
      IsFirstFault (EntryFault BadAssignment front rest) error := by
  induction rest generalizing front roster with
  | nil => exact ⟨nofun, fun hfault => absurd hfault not_isFirstFault_entryFault_nil⟩
  | cons assignment rest ih =>
    rcases fill_cons h with ⟨found, hbad, herror⟩ | ⟨hgood, later, -, hlater, hstep⟩
    · rw [herror, isFirstFault_entryFault_cons_of_bad found hbad, Except.error.injEq, eq_comm]
    · rw [hstep, ih hlater, isFirstFault_entryFault_cons hgood]

/-- Filling is setting one by one, as long as nothing goes wrong. -/
theorem foldlM_set_of_fill (h : Filled front roster) (hfill : fill rest (taken front) roster = .ok next) :
    rest.foldlM set roster = .ok next := by
  induction rest generalizing front roster with
  | nil => exact hfill
  | cons assignment rest ih =>
    rcases fill_cons h with ⟨found, -, herror⟩ | ⟨-, later, hset, hlater, hstep⟩
    · cases herror.symm.trans hfill
    · rw [List.foldlM_cons, hset]
      exact ih hlater (hstep ▸ hfill)

/-! ### Rosters of lists -/

theorem ofList_eq_ok_iff : ofList assignments = .ok roster ↔ Filled assignments roster :=
  fill_eq_ok_iff filled_nil

theorem ofList_eq_error_iff :
    ofList assignments = .error error ↔ IsFirstFault (EntryFault BadAssignment [] assignments) error :=
  fill_eq_error_iff filled_nil

theorem not_haveSlots_of_isFirstFault (h : IsFirstFault (EntryFault BadAssignment [] assignments) error) :
    ¬HaveSlots assignments := by
  obtain ⟨before, assignment, after, rfl, hbad⟩ := exists_bad_of_isFirstFault h
  exact hbad.not_haveSlots

theorem exists_ofList_iff : (∃ roster, ofList assignments = .ok roster) ↔ HaveSlots assignments := by
  constructor
  · rintro ⟨roster, hroster⟩
    exact (ofList_eq_ok_iff.1 hroster).toHaveSlots
  · intro h
    cases hroster : ofList assignments with
    | error error => exact absurd h (not_haveSlots_of_isFirstFault (ofList_eq_error_iff.1 hroster))
    | ok roster => exact ⟨roster, rfl⟩

theorem Filled.perm {others : List Assignment} (h : Filled assignments roster)
    (hperm : others.Perm assignments) : Filled others roster where
  inRange assignment hassignment := h.inRange assignment (hperm.mem_iff.1 hassignment)
  distinct := (hperm.map Assignment.slot).nodup_iff.2 h.distinct
  seated assignment hassignment := h.seated assignment (hperm.mem_iff.1 hassignment)
  vacant entry hentry hnew :=
    h.vacant entry hentry fun hslot => hnew ((hperm.map Assignment.slot).mem_iff.2 hslot)

end Roster

/-! ## Operations -/

/-- What makes or changes a roster. -/
inductive RosterStep where
  /-- A roster with nobody in it. -/
  | empty
  | ofList (assignments : List Assignment)
  /-- The roster that is stored as a tree. -/
  | decode (json : Json)
  | set (assignment : Assignment)

namespace Roster

/-- The roster that a step makes of the one there is. -/
def change (roster : Roster) : RosterStep → Except (Json.Fault RosterError) Roster
  | .empty => .ok .empty
  | .ofList assignments => (ofList assignments).mapError .refused
  | .decode json => ofJson json
  | .set assignment => (roster.set assignment).mapError .refused

/-- The roster after a step: as it was, if the step is refused. -/
def next (roster : Roster) (step : RosterStep) : Roster :=
  (roster.change step).toOption.getD roster

/-- The roster after steps taken one after another, from one with nobody in it. -/
def run (steps : List RosterStep) : Roster :=
  steps.foldl next .empty

theorem run_append_singleton (steps : List RosterStep) (step : RosterStep) :
    run (steps ++ [step]) = (run steps).next step := by
  simp only [run, List.foldl_append, List.foldl_cons, List.foldl_nil]

end Roster

/-! ## Plain lists -/

/-- A roster as a plain list of assignments. Nothing but the operations keeps them in their places. -/
structure Lineup where
  entries : List Assignment

namespace Lineup

def empty : Lineup where
  entries := (List.range rosterSlots).map fun slot => { slot }

/-- Puts an assignment in place of the one at the position of its slot. A slot without a position is an error,
which leaves the list as it was. -/
def set (lineup : Lineup) (assignment : Assignment) : Except RosterError Unit × Lineup :=
  match lineup.entries[assignment.slot]? with
  | some _ => (.ok (), { entries := lineup.entries.set assignment.slot assignment })
  | none => (.error (.slotOutOfRange assignment.slot), lineup)

/-- Puts assignments in place one by one, with a flag for each slot that is taken. There is no result at all if a
position is asked for that does not exist, be it of a flag or of an entry. -/
def fill? : List Assignment → (flags : List Bool) → Lineup → Option (Except RosterError Lineup)
  | [], _, lineup => some (.ok lineup)
  | assignment :: rest, flags, lineup =>
    if rosterSlots ≤ assignment.slot then some (.error (.slotOutOfRange assignment.slot))
    else
      match flags[assignment.slot]?, lineup.entries[assignment.slot]? with
      | some true, _ => some (.error (.duplicateSlot assignment.slot))
      | some false, some _ =>
        fill? rest (flags.set assignment.slot true)
          { entries := lineup.entries.set assignment.slot assignment }
      | _, _ => none

def ofList? (assignments : List Assignment) : Option (Except RosterError Lineup) :=
  fill? assignments (List.replicate rosterSlots false) .empty

/-- What is answered if a list is to take the place of the old one, and which of them is there afterwards. -/
def replacedBy (lineup : Lineup) :
    Except (Json.Fault RosterError) Lineup → Except (Json.Fault RosterError) Unit × Lineup
  | .ok fresh => (.ok (), fresh)
  | .error fault => (.error fault, lineup)

/-- What a step answers, and the list that there is afterwards. -/
def change? (lineup : Lineup) : RosterStep → Option (Except (Json.Fault RosterError) Unit × Lineup)
  | .empty => some (lineup.replacedBy (.ok .empty))
  | .ofList assignments =>
    (ofList? assignments).map fun result => lineup.replacedBy (result.mapError .refused)
  | .decode json =>
    match json.list Assignment.ofJson with
    | .ok assignments =>
      (ofList? assignments).map fun result => lineup.replacedBy (result.mapError .refused)
    | .error fault => some (lineup.replacedBy (.error fault))
  | .set assignment => some ((lineup.set assignment).map (Except.mapError .refused) id)

/-- The list after steps taken one after another, from one with nobody in it. -/
def run? (steps : List RosterStep) : Option Lineup :=
  steps.foldlM (fun lineup step => (lineup.change? step).map Prod.snd) .empty

/-! ### The list of a roster -/

/-- The list that a roster is kept as. -/
def ofRoster (roster : Roster) : Lineup where
  entries := roster.toList

variable {roster : Roster} {assignments : List Assignment}

theorem exists_getElem?_ofRoster {slot : Nat} (h : slot < rosterSlots) (roster : Roster) :
    ∃ entry, (ofRoster roster).entries[slot]? = some entry :=
  ⟨_, List.getElem?_eq_getElem (roster.length_toList.symm ▸ h)⟩

theorem set_ofRoster (roster : Roster) (assignment : Assignment) :
    (ofRoster roster).set assignment =
      ((roster.set assignment).map fun _ => (),
        ofRoster ((roster.set assignment).toOption.getD roster)) := by
  by_cases hslot : assignment.slot < rosterSlots
  · obtain ⟨next, hset, hnext⟩ := roster.exists_set hslot
    obtain ⟨entry, hentry⟩ := exists_getElem?_ofRoster hslot roster
    rw [set, hentry, hset]
    simp only [ofRoster, ← hnext]
    rfl
  · have hset : roster.set assignment = .error (.slotOutOfRange assignment.slot) :=
      Roster.set_eq_error_iff.2 ⟨Nat.not_lt.1 hslot, rfl⟩
    have hentry : (ofRoster roster).entries[assignment.slot]? = none :=
      List.getElem?_eq_none (roster.length_toList.symm ▸ Nat.not_lt.1 hslot)
    rw [set, hentry, hset]
    rfl

/-- The flags of the slots, raised for those that are taken. -/
def flags (taken : List Nat) : List Bool :=
  (List.range rosterSlots).map fun slot => decide (slot ∈ taken)

theorem getElem?_flags {slot : Nat} (h : slot < rosterSlots) (taken : List Nat) :
    (flags taken)[slot]? = some (decide (slot ∈ taken)) := by
  simp [flags, h]

theorem set_flags (slot : Nat) (taken : List Nat) :
    (flags taken).set slot true = flags (slot :: taken) := by
  refine List.ext_getElem (by simp [flags]) fun other hother _ => ?_
  by_cases heq : slot = other
  · simp [flags, heq]
  · simp [flags, heq, Ne.symm heq]

/-- **Filling never asks for a position that does not exist**, and does to the list what it does to the roster. -/
theorem fill?_ofRoster (assignments : List Assignment) (taken : List Nat) (roster : Roster) :
    fill? assignments (flags taken) (ofRoster roster) =
      some ((Roster.fill assignments taken roster).map ofRoster) := by
  induction assignments generalizing taken roster with
  | nil => rfl
  | cons assignment rest ih =>
    rw [fill?, Roster.fill]
    by_cases hslot : assignment.slot < rosterSlots
    · obtain ⟨next, hset, hnext⟩ := roster.exists_set hslot
      obtain ⟨entry, hentry⟩ := exists_getElem?_ofRoster hslot roster
      rw [if_neg (Nat.not_le.2 hslot), getElem?_flags hslot, hentry, hset]
      by_cases htaken : assignment.slot ∈ taken
      · simp [htaken, bind, Except.bind, Except.map]
      · have hlist : { entries := (ofRoster roster).entries.set assignment.slot assignment } =
            ofRoster next := by
          rw [ofRoster, ofRoster, hnext]
        simp only [htaken, decide_false, set_flags, hlist, ih]
        rfl
    · have hout := Nat.not_lt.1 hslot
      rw [if_pos hout, Roster.set_eq_error_iff.2 ⟨hout, rfl⟩]
      rfl

theorem ofList?_eq (assignments : List Assignment) :
    ofList? assignments = some ((Roster.ofList assignments).map ofRoster) :=
  fill?_ofRoster assignments [] .empty

theorem map_ofList? (roster : Roster) (assignments : List Assignment) :
    ((ofList? assignments).map fun result => (ofRoster roster).replacedBy (result.mapError .refused)) =
      some ((roster.change (.ofList assignments)).map fun _ => (),
        ofRoster (roster.next (.ofList assignments))) := by
  rw [ofList?_eq, Roster.next, Roster.change]
  cases Roster.ofList assignments <;> rfl

/-- **A step does to the list what it does to the roster**, and answers the same. -/
theorem change?_ofRoster (roster : Roster) (step : RosterStep) :
    (ofRoster roster).change? step =
      some ((roster.change step).map fun _ => (), ofRoster (roster.next step)) := by
  cases step with
  | empty => rfl
  | ofList assignments => exact map_ofList? roster assignments
  | decode json =>
    rw [change?, Roster.next, Roster.change, Roster.ofJson]
    cases json.list Assignment.ofJson with
    | error fault => rfl
    | ok assignments => exact map_ofList? roster assignments
  | set assignment =>
    rw [change?, set_ofRoster, Roster.next, Roster.change]
    cases roster.set assignment <;> rfl

/-- **Whatever has been done**, the list is that of a roster. -/
theorem run?_eq (steps : List RosterStep) : run? steps = some (ofRoster (Roster.run steps)) := by
  suffices h : ∀ roster : Roster,
      steps.foldlM (fun lineup step => (change? lineup step).map Prod.snd) (ofRoster roster) =
        some (ofRoster (steps.foldl Roster.next roster)) from h .empty
  induction steps with
  | nil => exact fun _ => rfl
  | cons step rest ih =>
    intro roster
    rw [List.foldlM_cons, change?_ofRoster]
    exact ih (roster.next step)

end Lineup

/-! ## The main statement -/

/-- **Every runner has a slot and every slot its runner.** Kept as a plain list, a roster has one entry for each slot,
at the position of the slot, after any steps, none of which asks for a position that does not exist. A list of
assignments makes a roster if and only if their slots exist and are distinct. The roster is then filled by them, in
whatever order they are listed, and as by setting them one by one; otherwise the error is that of the first to blame.
Setting a runner changes one slot, or is refused if the slot does not exist. A roster is made again of its own list. -/
theorem Roster.seating_isExact :
    (∀ steps : List RosterStep, ∃ lineup : Lineup, Lineup.run? steps = some lineup ∧
      lineup.entries = (run steps).toList ∧ lineup.entries.length = rosterSlots ∧
      (∀ (slot : Nat) (entry : Assignment), lineup.entries[slot]? = some entry → entry.slot = slot) ∧
      ∀ step, lineup.change? step =
        some (((run steps).change step).map fun _ => (), .ofRoster (run (steps ++ [step])))) ∧
    (∀ assignments : List Assignment,
      ((∃ roster, ofList assignments = .ok roster) ↔ HaveSlots assignments) ∧
      (∀ roster, ofList assignments = .ok roster →
        Filled assignments roster ∧ assignments.foldlM set .empty = .ok roster ∧
        ∀ others : List Assignment, others.Perm assignments → ofList others = .ok roster) ∧
      ∀ error, ofList assignments = .error error ↔
        IsFirstFault (EntryFault BadAssignment [] assignments) error) ∧
    (∀ (roster : Roster) (assignment : Assignment),
      (∀ next, roster.set assignment = .ok next ↔ assignment.slot < rosterSlots ∧
        next.toList = roster.toList.set assignment.slot assignment) ∧
      (∀ error, roster.set assignment = .error error ↔
        rosterSlots ≤ assignment.slot ∧ error = .slotOutOfRange assignment.slot) ∧
      (rosterSlots ≤ assignment.slot → ((Lineup.ofRoster roster).set assignment).2 = .ofRoster roster)) ∧
    ∀ roster : Roster, ofList roster.toList = .ok roster := by
  refine ⟨fun steps => ?_, fun assignments => ?_, fun roster assignment => ?_, ofList_toList⟩
  · refine ⟨.ofRoster (run steps), Lineup.run?_eq steps, rfl, (run steps).length_toList, ?_, ?_⟩
    · intro slot entry hentry
      have hslot : (run steps).toList[slot]? = some entry := hentry
      rw [getElem?_toList, Option.map_eq_some_iff] at hslot
      obtain ⟨runner, -, rfl⟩ := hslot
      rfl
    · intro step
      rw [Lineup.change?_ofRoster, run_append_singleton]
  · refine ⟨exists_ofList_iff, fun roster hroster => ?_, fun error => ofList_eq_error_iff⟩
    have hfilled := ofList_eq_ok_iff.1 hroster
    exact ⟨hfilled, foldlM_set_of_fill filled_nil hroster,
      fun others hperm => ofList_eq_ok_iff.2 (hfilled.perm hperm)⟩
  · refine ⟨fun next => set_eq_ok_iff, fun error => set_eq_error_iff, fun hout => ?_⟩
    rw [Lineup.set_ofRoster, set_eq_error_iff.2 ⟨hout, rfl⟩]
    rfl

/-- Two assignments with the later slot in front, and nobody between them. -/
theorem Roster.seating_isExact_shuffled :
    let ninja : Assignment := { slot := 2, runner := { type := .ninja, ninja := 4 } }
    let face : Assignment := { slot := 0, runner := { type := .face } }
    let roster : Roster := { runners := #v[face.runner, .nobody, ninja.runner] }
    ofList [ninja, face] = .ok roster ∧ Filled [ninja, face] roster ∧ ofList [face, ninja] = .ok roster := by
  intro ninja face roster
  have hlist : ofList [ninja, face] = .ok roster := by decide
  obtain ⟨hfilled, -, hperm⟩ := (seating_isExact.2.1 [ninja, face]).2.1 roster hlist
  exact ⟨hlist, hfilled, hperm [face, ninja] (.swap ninja face [])⟩

end PerkGraph
