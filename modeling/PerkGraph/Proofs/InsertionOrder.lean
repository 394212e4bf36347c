import Mathlib.Data.Finset.Card
import Mathlib.Data.List.Dedup
import PerkGraph.Proofs.StoredForms

/-!
# Sets in order of insertion

A selection answers as a set does, and lists its ids in the order in which they came to stay. Three machines take the
same steps:

* a plain list of ids (`IdList`), whose type allows repetitions: an insertion looks for the id, an erasure compares
  the lengths before and after;
* `Selection`, whose type rules them out;
* a finite set with a log of the insertions that were new (`Chosen`), which has no order but that of the log.

Step by step, and so over every run, the three answer alike (`IdList.step_shows`, `Selection.step_ids`). What the
list holds at the end is told by the set and the log alone: the members, each where its latest insertion stands in the
log (`Chosen.Shows`).
-/

namespace PerkGraph

/-- What is done with a selection. -/
inductive SelectionStep where
  | insert (id : String)
  | erase (id : String)
  | filter (keep : String → Bool)

/-- The answers to the steps of a run, one after another, and where the run ends. -/
def SelectionStep.run {State : Type} (step : State → SelectionStep → Option Bool × State) (state : State) :
    List SelectionStep → List (Option Bool) × State
  | [] => ([], state)
  | change :: rest =>
    let (answer, next) := step state change
    let (answers, last) := run step next rest
    (answer :: answers, last)

/-- Two machines that stay related, with the same answer to every step, do so over every run. -/
theorem SelectionStep.run_related {State Other : Type} {step : State → SelectionStep → Option Bool × State}
    {step' : Other → SelectionStep → Option Bool × Other} {Related : State → Other → Prop}
    (hstep : ∀ s t change, Related s t →
      (step s change).1 = (step' t change).1 ∧ Related (step s change).2 (step' t change).2)
    (steps : List SelectionStep) {s : State} {t : Other} (h : Related s t) :
    (run step s steps).1 = (run step' t steps).1 ∧
      Related (run step s steps).2 (run step' t steps).2 := by
  induction steps generalizing s t with
  | nil => exact ⟨rfl, h⟩
  | cons change rest ih =>
    obtain ⟨hanswer, hnext⟩ := hstep s t change h
    obtain ⟨hanswers, hlast⟩ := ih hnext
    refine ⟨?_, hlast⟩
    simp only [run, hanswer, hanswers]

/-! ## Three machines -/

namespace IdList

def contains (ids : List String) (id : String) : Bool :=
  ids.any fun selected => selected == id

/-- Puts an id at the end, unless it is found, and tells whether it was new. -/
def insert (ids : List String) (id : String) : Bool × List String :=
  if contains ids id then (false, ids) else (true, ids ++ [id])

/-- Drops an id wherever it stands, and tells by the length whether it was there. -/
def erase (ids : List String) (id : String) : Bool × List String :=
  let left := ids.filter fun selected => selected != id
  (left.length != ids.length, left)

/-- Keeps the ids that a test accepts. The test is asked from the first id to the last and may remember. -/
def sift {Memory : Type} (keep : Memory → String → Bool × Memory) : Memory → List String → List String
  | _, [] => []
  | memory, id :: rest =>
    let (accepted, memory) := keep memory id
    if accepted then id :: sift keep memory rest else sift keep memory rest

def ofList (xs : List String) : List String :=
  xs.foldl (fun ids id => (insert ids id).2) []

def step (ids : List String) : SelectionStep → Option Bool × List String
  | .insert id => ((insert ids id).1, (insert ids id).2)
  | .erase id => ((erase ids id).1, (erase ids id).2)
  | .filter keep => (none, ids.filter keep)

end IdList

def Selection.step (s : Selection) : SelectionStep → Option Bool × Selection
  | .insert id => ((s.insertNew id).1, (s.insertNew id).2)
  | .erase id => ((s.eraseOld id).1, (s.eraseOld id).2)
  | .filter keep => (none, s.filter keep)

/-- A set of ids, and every insertion so far that was new. -/
structure Chosen where
  members : Finset String
  insertions : List String

namespace Chosen

/-- The members of a list. The first time each of them stands there, it is new. -/
def ofList (xs : List String) : Chosen where
  members := xs.toFinset
  insertions := xs.eraseDups

def step (chosen : Chosen) : SelectionStep → Option Bool × Chosen
  | .insert id =>
    if id ∈ chosen.members then (false, chosen)
    else (true, { members := insert id chosen.members, insertions := chosen.insertions ++ [id] })
  | .erase id => (some (id ∈ chosen.members), { chosen with members := chosen.members.erase id })
  | .filter keep => (none, { chosen with members := chosen.members.filter fun id => keep id = true })

/-- The list holds the members, once each, in the order of their latest insertions. -/
structure Shows (chosen : Chosen) (ids : List String) : Prop where
  nodup : ids.Nodup
  members : ids.toFinset = chosen.members
  ordered : ids = chosen.insertions.dedup.filter (· ∈ chosen.members)

end Chosen

/-! ## The latest insertion -/

/-- One more entry in the log is the latest of its id. -/
theorem dedup_concat (log : List String) (id : String) :
    (log ++ [id]).dedup = (log.dedup.filter (· ≠ id)) ++ [id] := by
  induction log with
  | nil => simp
  | cons other rest ih =>
    rw [List.cons_append]
    by_cases hin : other ∈ rest
    · rw [List.dedup_cons_of_mem (List.mem_append_left _ hin), List.dedup_cons_of_mem hin, ih]
    · by_cases heq : other = id
      · rw [List.dedup_cons_of_mem (by simp [heq]), ih, List.dedup_cons_of_notMem hin]
        simp [heq]
      · rw [List.dedup_cons_of_notMem (by simp [hin, heq]), ih, List.dedup_cons_of_notMem hin]
        simp [heq]

namespace Chosen

variable {chosen : Chosen} {ids : List String} {id : String}

theorem Shows.mem_iff (h : chosen.Shows ids) : id ∈ ids ↔ id ∈ chosen.members := by
  rw [← h.members, List.mem_toFinset]

theorem Shows.append (h : chosen.Shows ids) (hnew : id ∉ chosen.members) :
    Shows { members := insert id chosen.members, insertions := chosen.insertions ++ [id] } (ids ++ [id]) where
  nodup := List.nodup_append.2 ⟨h.nodup, List.nodup_singleton id, fun x hx y hy => by
    rintro rfl
    exact hnew (h.mem_iff.1 (List.mem_singleton.1 hy ▸ hx))⟩
  members := by
    ext x
    simp [h.mem_iff]
  ordered := by
    rw [dedup_concat, List.filter_append, List.filter_filter]
    conv_lhs => rw [h.ordered]
    congr 1
    · refine List.filter_congr fun x _ => ?_
      by_cases heq : x = id
      · simp [heq, hnew]
      · simp [heq]
    · simp

theorem Shows.filter (h : chosen.Shows ids) (keep : String → Bool) :
    Shows { chosen with members := chosen.members.filter fun id => keep id = true } (ids.filter keep) where
  nodup := h.nodup.filter keep
  members := by
    ext x
    simp [h.mem_iff]
  ordered := by
    conv_lhs => rw [h.ordered, List.filter_filter]
    refine List.filter_congr fun x _ => ?_
    simp [Bool.and_comm]

theorem Shows.erase (h : chosen.Shows ids) (id : String) :
    Shows { chosen with members := chosen.members.erase id } (ids.filter (· != id)) := by
  have hkeep : (chosen.members.filter fun other => (other != id) = true) = chosen.members.erase id := by
    simp [Finset.filter_ne']
  rw [← hkeep]
  exact h.filter (· != id)

end Chosen

/-! ## The plain list answers as the set does -/

namespace IdList

variable {ids : List String} {id : String} {chosen : Chosen}

theorem contains_eq (ids : List String) (id : String) : contains ids id = decide (id ∈ ids) := by
  rw [Bool.eq_iff_iff]
  simp [contains]

/-- The length tells whether an id was dropped. -/
theorem erase_eq (ids : List String) (id : String) :
    erase ids id = (decide (id ∈ ids), ids.filter (· != id)) := by
  have hlength : (ids.filter (· != id)).length = ids.length ↔ id ∉ ids := by
    rw [List.length_filter_eq_length_iff]
    simp only [bne_iff_ne]
    exact ⟨fun h hin => h id hin rfl, fun h x hx heq => h (heq ▸ hx)⟩
  refine Prod.ext ?_ rfl
  rw [erase, bne, Bool.not_eq_eq_eq_not]
  by_cases hin : id ∈ ids
  · simp [hin, hlength]
  · simp [hin, hlength]

/-- **One step**: the list and the set give the same answer, and the list goes on showing the set. -/
theorem step_shows (ids : List String) (chosen : Chosen) (change : SelectionStep) (h : chosen.Shows ids) :
    (step ids change).1 = (chosen.step change).1 ∧ (chosen.step change).2.Shows (step ids change).2 := by
  cases change with
  | insert id =>
    simp only [step, insert, contains_eq, h.mem_iff]
    by_cases hin : id ∈ chosen.members
    · simpa [Chosen.step, hin] using h
    · simpa [Chosen.step, hin] using h.append hin
  | erase id =>
    simp only [step, erase_eq, h.mem_iff]
    exact ⟨rfl, h.erase id⟩
  | filter keep => exact ⟨rfl, h.filter keep⟩

theorem ofList_concat (xs : List String) (x : String) : ofList (xs ++ [x]) = (insert (ofList xs) x).2 :=
  List.foldl_concat ..

/-- **A list turns into its ids where they stand first.** -/
theorem ofList_eq (xs : List String) : ofList xs = xs.eraseDups := by
  induction xs using List.reverseRecOn with
  | nil => rfl
  | append_singleton xs x ih =>
    rw [ofList_concat, ih, List.eraseDups_append, insert, contains_eq, List.removeAll]
    by_cases hin : x ∈ xs
    · simp [hin]
    · simp [hin, List.eraseDups_cons]

/-- On distinct ids a test that remembers does no more than one that does not: it is asked about each of them once. -/
theorem exists_filter_eq_sift {Memory : Type} (keep : Memory → String → Bool × Memory) (memory : Memory)
    (h : ids.Nodup) : ∃ test : String → Bool, sift keep memory ids = ids.filter test := by
  induction ids generalizing memory with
  | nil => exact ⟨fun _ => true, rfl⟩
  | cons id rest ih =>
    obtain ⟨hout, hrest⟩ := List.nodup_cons.1 h
    obtain ⟨test, htest⟩ := ih (keep memory id).2 hrest
    let asked (x : String) : Bool := if x = id then (keep memory id).1 else test x
    have hcongr : rest.filter asked = rest.filter test :=
      List.filter_congr fun x hx => if_neg fun heq : x = id => hout (heq ▸ hx)
    have hid : asked id = (keep memory id).1 := if_pos rfl
    refine ⟨asked, ?_⟩
    rw [List.filter_cons, hcongr, hid, ← htest]
    rfl

end IdList

/-! ## Selections answer as their lists do -/

namespace Selection

theorem insertNew_eq (s : Selection) (id : String) :
    ((s.insertNew id).1, (s.insertNew id).2.ids) = IdList.insert s.ids id := by
  rw [insertNew, IdList.insert, IdList.contains_eq]
  by_cases hin : id ∈ s
  · simp [insert, hin, mem_def.1 hin]
  · simp [ids_insert_of_not_mem hin, hin, mt mem_def.2 hin]

/-- **One step** leaves a selection and the plain list of its ids with the same answer and the same ids. -/
theorem step_ids (s : Selection) (ids : List String) (change : SelectionStep) (h : s.ids = ids) :
    (s.step change).1 = (IdList.step ids change).1 ∧ (s.step change).2.ids = (IdList.step ids change).2 := by
  subst h
  cases change with
  | insert id =>
    rw [IdList.step, ← insertNew_eq]
    exact ⟨rfl, rfl⟩
  | erase id =>
    rw [IdList.step, IdList.erase_eq]
    exact ⟨rfl, rfl⟩
  | filter keep => exact ⟨rfl, rfl⟩

theorem ids_ofList (xs : List String) : (ofList xs).ids = IdList.ofList xs := by
  induction xs using List.reverseRecOn with
  | nil => rfl
  | append_singleton xs x ih =>
    rw [IdList.ofList_concat, ← ih, ← insertNew_eq, ofList, List.foldl_concat]
    rfl

/-- The set of the ids has as many members as there are ids. -/
theorem size_toIdSet (s : Selection) : s.toIdSet.size = s.size :=
  ((List.perm_ext_iff_of_nodup s.toIdSet.nodup_toList s.nodup).2 fun _ => mem_toIdSet).length_eq

end Selection

theorem Chosen.shows_ofList (xs : List String) : (ofList xs).Shows (IdList.ofList xs) := by
  have hnodup : xs.eraseDups.Nodup := by
    rw [← IdList.ofList_eq, ← Selection.ids_ofList]
    exact (Selection.ofList xs).nodup
  rw [IdList.ofList_eq]
  refine { nodup := hnodup, members := ?_, ordered := ?_ }
  · ext x
    simp [ofList]
  · rw [ofList, hnodup.dedup, eq_comm, List.filter_eq_self]
    simp

/-- **A selection is a set in order of insertion.** From any list of ids and over any steps, the plain list, the
selection and the set give the same answers. The list is at every time free of repetitions, it is as long as the set
is large and has the same members, and it has them in the order of their latest insertions. A test that remembers
may keep what some plain test keeps, and no more. A list turns into its ids where they stand first, and what is read
off a selection turns into that selection again. -/
theorem Selection.refines_chosen (start : List String) (steps : List SelectionStep) :
    let listed := SelectionStep.run IdList.step (IdList.ofList start) steps
    let kept := SelectionStep.run Selection.step (.ofList start) steps
    let chosen := SelectionStep.run Chosen.step (.ofList start) steps
    listed.1 = chosen.1 ∧ kept.1 = chosen.1 ∧ kept.2.ids = listed.2 ∧
    listed.2.Nodup ∧
    listed.2.length = kept.2.toIdSet.size ∧ listed.2.length = chosen.2.members.card ∧
    (∀ id, IdList.contains listed.2 id = true ↔ id ∈ chosen.2.members) ∧
    (listed.2.isEmpty = true ↔ chosen.2.members = ∅) ∧
    listed.2 = chosen.2.insertions.dedup.filter (· ∈ chosen.2.members) ∧
    (∀ (Memory : Type) (keep : Memory → String → Bool × Memory) (memory : Memory),
      ∃ test : String → Bool, IdList.sift keep memory listed.2 = listed.2.filter test) ∧
    IdList.ofList start = start.eraseDups ∧
    IdList.ofList listed.2 = listed.2 ∧ Selection.ofList kept.2.ids = kept.2 := by
  intro listed kept chosen
  obtain ⟨hlisted, hshows⟩ : listed.1 = chosen.1 ∧ chosen.2.Shows listed.2 :=
    SelectionStep.run_related IdList.step_shows steps (Chosen.shows_ofList start)
  obtain ⟨hkept, hids⟩ : kept.1 = listed.1 ∧ kept.2.ids = listed.2 :=
    SelectionStep.run_related Selection.step_ids steps (Selection.ids_ofList start)
  have hcard : listed.2.length = chosen.2.members.card := by
    rw [← hshows.members, List.toFinset_card_of_nodup hshows.nodup]
  have hsize : listed.2.length = kept.2.toIdSet.size := by
    rw [Selection.size_toIdSet, Selection.size, hids]
  refine ⟨hlisted, hkept.trans hlisted, hids, hshows.nodup, hsize, hcard, fun id => ?_, ?_, hshows.ordered,
    fun _ keep memory => IdList.exists_filter_eq_sift keep memory hshows.nodup, IdList.ofList_eq start, ?_,
    Selection.ofList_ids kept.2⟩
  · rw [IdList.contains_eq, decide_eq_true_iff, hshows.mem_iff]
  · rw [List.isEmpty_iff, ← List.toFinset_eq_empty_iff, hshows.members]
  · rw [← hids, ← Selection.ids_ofList, Selection.ofList_ids]

/-- An id that is erased and inserted again moves to the end. -/
example :
    SelectionStep.run Selection.step (.ofList ["b", "a", "b"]) [.insert "b", .erase "b", .insert "b"] =
      ([some false, some true, some true], { ids := ["a", "b"], nodup := by decide }) := by
  decide

end PerkGraph
