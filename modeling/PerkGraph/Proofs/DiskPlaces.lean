import Mathlib.Data.List.Induction
import PerkGraph.Files.Disk

/-!
# Where paths lead

A path leads through folders, so the place that it leads to stays the same as long as they are there
(`Disk.KeepsFolders.resolve`), and the folder that a place is in is there too (`Disk.IsReached.up`). A path
that ends in no name leads to a folder (`Disk.entry?_of_name?_eq_none`).
-/

namespace PerkGraph

/-! ## Segments -/

namespace Path

variable {path name last : String} {front : List String}

theorem exists_segments_eq (path : String) : ∃ front last, segments path = front ++ [last] :=
  ⟨_, _, (List.dropLast_concat_getLast (Text.split_ne_nil '/' path)).symm⟩

theorem slash_not_mem (h : segments path = front ++ [last]) : '/' ∉ last.toList :=
  Text.not_mem_of_mem_split (show last ∈ segments path by simp [h])

theorem ne_empty_of_not_isIdle (h : isIdle last = false) : last ≠ "" := by
  rintro rfl
  exact absurd h (by decide)

/-- A path that does not end in a slash has something behind its last one. -/
theorem last_ne_empty (h : segments path = front ++ [last]) (hpath : path ≠ "")
    (hend : path.toList.getLast? ≠ some '/') : last ≠ "" := by
  rintro rfl
  have hjoin : Text.join "/" (front ++ [""]) = path := h ▸ Text.join_split '/' path
  cases front with
  | nil => exact hpath hjoin.symm
  | cons first rest =>
    rw [Text.join_append_singleton _ _ (List.cons_ne_nil _ _)] at hjoin
    exact hend (by simp [← hjoin])

theorem name?_eq_some (h : segments path = front ++ [last]) (hidle : isIdle last = false)
    (hup : last ≠ "..") : name? path = some last := by
  simp [name?, h, hidle, hup]

theorem sibling_eq (path name : String) :
    sibling path name =
      match name? path with
      | some _ => join ((parent? path).getD "") name
      | none => join path name := rfl

theorem sibling_of_name? {other : String} (name : String) (h : name? path = some other) :
    sibling path name = join ((parent? path).getD "") name := by
  rw [sibling_eq, h]

/-- A name in a folder is the last segment of its path. -/
theorem segments_join (folder : String) (h : '/' ∉ name.toList) :
    ∃ front, segments (join folder name) = front ++ [name] := by
  have hslash (rest : String) : segments (rest ++ "/" ++ name) = segments rest ++ [name] :=
    (Text.split_append '/' rest name).trans (by rw [Text.split_of_not_mem h]; rfl)
  unfold join
  split
  · exact ⟨[], Text.split_of_not_mem h⟩
  · split
    · rename_i hend
      obtain ⟨chars, hchars⟩ := List.getLast?_eq_some_iff.1 hend
      have hfolder : folder = String.ofList chars ++ "/" := by
        rw [← String.toList_inj, hchars]
        simp
      exact ⟨_, hfolder ▸ hslash _⟩
    · exact ⟨_, hslash _⟩

end Path

namespace Disk

variable {disk next : Disk} {place result : Place} {segment path name last : String}
  {front : List String}

/-! ## Entries -/

theorem isAround_eq_false (h : disk.entry? place ≠ some .folder) : place.isAround = false := by
  by_contra haround
  exact h (if_pos (by simpa using haround))

theorem lookup_filter_ne (entries : List (Place × DiskEntry)) (place other : Place) :
    (entries.filter fun entry => entry.1 ≠ place).lookup other =
      if other = place then none else entries.lookup other := by
  induction entries with
  | nil => simp
  | cons entry rest ih =>
    obtain ⟨key, value⟩ := entry
    by_cases hkey : key = place
    · subst hkey
      rw [List.filter_cons_of_neg (by simp), ih]
      by_cases hother : other = key
      · rw [if_pos hother, if_pos hother]
      · rw [if_neg hother, if_neg hother, List.lookup_cons, beq_eq_false_iff_ne.2 hother]
    · rw [List.filter_cons_of_pos (by simpa using hkey), List.lookup_cons, List.lookup_cons, ih]
      by_cases hother : other = key
      · subst hother
        simp only [beq_self_eq_true, if_neg hkey]
      · rw [beq_eq_false_iff_ne.2 hother]

theorem entry?_erase (h : place.isAround = false) (other : Place) :
    entry? (disk.erase place) other = if other = place then none else disk.entry? other := by
  unfold entry? erase
  rw [lookup_filter_ne]
  by_cases hother : other = place
  · subst hother
    simp [h]
  · simp [hother]

theorem entry?_put (h : place.isAround = false) (entry : DiskEntry) (other : Place) :
    entry? (disk.put place entry) other = if other = place then some entry else disk.entry? other := by
  unfold entry? put erase
  rw [List.lookup_append, lookup_filter_ne]
  by_cases hother : other = place
  · subst hother
    simp [h]
  · simp [hother, List.lookup_cons, beq_eq_false_iff_ne.2 hother]

theorem erase_erase (disk : Disk) (place : Place) : (disk.erase place).erase place = disk.erase place := by
  simp only [erase, List.filter_filter, Bool.and_self]

theorem erase_put (disk : Disk) (place : Place) (entry : DiskEntry) :
    (disk.put place entry).erase place = disk.erase place := by
  simp [put, erase, List.filter_append, List.filter_filter]

theorem erase_put_of_ne {other : Place} (h : place ≠ other) (disk : Disk) (entry : DiskEntry) :
    (disk.put place entry).erase other = (disk.erase other).put place entry := by
  simp [put, erase, List.filter_append, List.filter_filter, h, Bool.and_comm]

theorem put_put (disk : Disk) (place : Place) (first second : DiskEntry) :
    (disk.put place first).put place second = disk.put place second := by
  rw [put, erase_put, put]

/-! ## Following a path -/

theorem entry?_of_step (h : disk.step place segment = .ok result) :
    disk.entry? place = some .folder := by
  unfold step folder at h
  cases hentry : disk.entry? place with
  | none => simp [hentry] at h
  | some entry =>
    cases entry with
    | folder => rfl
    | file text => simp [hentry] at h

theorem step_eq (h : disk.entry? place = some .folder) :
    disk.step place segment =
      if Path.isIdle segment then .ok place
      else if segment = ".." then .ok place.up
      else if nameLimit < segment.utf8ByteSize then .error .nameTooLong
      else .ok (place ++ [segment]) := by
  simp only [step, folder, h]

theorem eq_append_of_step (h : disk.step place segment = .ok result)
    (hidle : Path.isIdle segment = false) (hup : segment ≠ "..") : result = place ++ [segment] := by
  rw [step_eq (entry?_of_step h), hidle, if_neg Bool.false_ne_true, if_neg hup] at h
  split at h
  · cases h
  · exact (Except.ok.inj h).symm

theorem follow_append_singleton (front : List String) (last : String) (place : Place) :
    disk.follow (front ++ [last]) place =
      match disk.follow front place with
      | .error error => .error error
      | .ok parent => disk.step parent last := by
  induction front generalizing place with
  | nil =>
    simp only [List.nil_append, follow]
    cases disk.step place last <;> rfl
  | cons segment rest ih =>
    rw [List.cons_append, follow, follow]
    cases disk.step place segment with
    | error error => rfl
    | ok next => exact ih next

theorem resolve_eq_ok_iff :
    disk.resolve path = .ok place ↔
      checkPath path = .ok () ∧ disk.follow (Path.segments path) (Place.start path) = .ok place := by
  unfold resolve
  cases checkPath path with
  | error error => simp [bind, Except.bind]
  | ok _ => simp [bind, Except.bind]

theorem resolve_eq_append (h : disk.resolve path = .ok place) (hsegments : Path.segments path = front ++ [last])
    (hidle : Path.isIdle last = false) (hup : last ≠ "..") : ∃ parent : Place, place = parent ++ [last] := by
  obtain ⟨-, hfollow⟩ := resolve_eq_ok_iff.1 h
  rw [hsegments, follow_append_singleton] at hfollow
  split at hfollow
  · cases hfollow
  · exact ⟨_, eq_append_of_step hfollow hidle hup⟩

/-- What asks for the last segment of a path finds the place that the path leads to. -/
theorem resolveLast_eq_ok_iff (hsegments : Path.segments path = front ++ [last]) (hlast : last ≠ "") :
    disk.resolveLast path = .ok (place, name) ↔ disk.resolve path = .ok place ∧ name = last := by
  rw [resolve_eq_ok_iff, hsegments, follow_append_singleton]
  have hreverse : (Path.segments path).reverse.dropWhile (· = "") = last :: front.reverse := by
    rw [hsegments, List.reverse_append]
    simp [hlast]
  unfold resolveLast resolveFolder
  simp only [hreverse, List.reverse_reverse]
  cases checkPath path with
  | error error => simp [bind, Except.bind]
  | ok _ =>
    cases hfollow : disk.follow front (Place.start path) with
    | error error => simp [bind, Except.bind]
    | ok parent =>
      cases hfolder : disk.folder parent with
      | error error => simp [step, hfolder, bind, Except.bind]
      | ok _ =>
        cases hstep : disk.step parent last with
        | error error => simp [hfolder, hstep, bind, Except.bind, pure, Except.pure]
        | ok result =>
          simp [hfolder, hstep, bind, Except.bind, pure, Except.pure, eq_comm (a := last)]

/-! ## Keeping folders -/

/-- The folders of one disk are folders of the other. -/
def KeepsFolders (disk next : Disk) : Prop :=
  ∀ place, disk.entry? place = some .folder → next.entry? place = some .folder

namespace KeepsFolders

theorem refl (disk : Disk) : disk.KeepsFolders disk := fun _ h => h

theorem trans {last : Disk} (h : disk.KeepsFolders next) (hnext : next.KeepsFolders last) :
    disk.KeepsFolders last :=
  fun place hplace => hnext place (h place hplace)

theorem step (h : disk.KeepsFolders next) (hstep : disk.step place segment = .ok result) :
    next.step place segment = .ok result := by
  have hfolder := entry?_of_step hstep
  rwa [step_eq (h place hfolder), ← step_eq hfolder]

theorem follow (h : disk.KeepsFolders next) {segments : List String}
    (hfollow : disk.follow segments place = .ok result) : next.follow segments place = .ok result := by
  induction segments generalizing place with
  | nil => exact hfollow
  | cons segment rest ih =>
    rw [Disk.follow] at hfollow ⊢
    cases hstep : disk.step place segment with
    | error error => simp [hstep] at hfollow
    | ok passed =>
      rw [hstep] at hfollow
      rw [h.step hstep]
      exact ih hfollow

/-- **Paths go on leading where they lead.** -/
theorem resolve (h : disk.KeepsFolders next) (hresolve : disk.resolve path = .ok place) :
    next.resolve path = .ok place := by
  obtain ⟨hcheck, hfollow⟩ := resolve_eq_ok_iff.1 hresolve
  exact resolve_eq_ok_iff.2 ⟨hcheck, h.follow hfollow⟩

end KeepsFolders

/-! ## Paths without a name -/

/-- A place that is reached through folders. -/
inductive IsReached (disk : Disk) : Place → Prop
  | around {place : Place} (h : place.isAround = true) : IsReached disk place
  | inside {place : Place} (name : String) (h : IsReached disk place)
      (hfolder : disk.entry? place = some .folder) : IsReached disk (place ++ [name])

theorem entry?_of_isAround (h : place.isAround = true) : disk.entry? place = some .folder :=
  if_pos h

namespace IsReached

theorem isAround_up (h : place.isAround = true) : place.up.isAround = true := by
  unfold Place.up
  by_cases htop : place = Place.top
  · rw [if_pos htop]
    rfl
  · rw [if_neg htop, if_pos h]
    have hall : place.all (· = "..") = true := by simpa [Place.isAround, htop] using h
    simp only [Place.isAround, Bool.or_eq_true, List.all_append, hall]
    exact .inr rfl

/-- The folder that a reached place is in is there, and reached as well. -/
theorem up (h : disk.IsReached place) :
    disk.IsReached place.up ∧ disk.entry? place.up = some .folder := by
  by_cases haround : place.isAround = true
  · have hup := isAround_up haround
    exact ⟨.around hup, entry?_of_isAround hup⟩
  · cases h with
    | around h => exact absurd h haround
    | @inside parent name h hfolder =>
      have hup : Place.up (parent ++ [name]) = parent := by
        have htop : parent ++ [name] ≠ Place.top := by
          intro htop
          exact haround (by rw [htop]; rfl)
        rw [Place.up, if_neg htop, if_neg haround, List.dropLast_concat]
      rw [hup]
      exact ⟨h, hfolder⟩

theorem step (h : disk.IsReached place) (hstep : disk.step place segment = .ok result) :
    disk.IsReached result := by
  have hfolder := entry?_of_step hstep
  rw [step_eq hfolder] at hstep
  split at hstep
  · exact Except.ok.inj hstep ▸ h
  · split at hstep
    · exact Except.ok.inj hstep ▸ h.up.1
    · split at hstep
      · cases hstep
      · exact Except.ok.inj hstep ▸ h.inside segment hfolder

theorem follow {segments : List String} (h : disk.IsReached place)
    (hfollow : disk.follow segments place = .ok result) : disk.IsReached result := by
  induction segments generalizing place with
  | nil => exact Except.ok.inj hfollow ▸ h
  | cons segment rest ih =>
    rw [Disk.follow] at hfollow
    cases hstep : disk.step place segment with
    | error error => simp [hstep] at hfollow
    | ok passed =>
      rw [hstep] at hfollow
      exact ih (h.step hstep) hfollow

end IsReached

theorem isAround_start (path : String) : (Place.start path).isAround = true := by
  unfold Place.start
  split <;> rfl

/-- Segments that end in no name, be it that they end in the folder above, lead to a folder. -/
theorem entry?_of_follow {segments : List String} (hstart : disk.IsReached place)
    (hplace : disk.entry? place = some .folder)
    (hname : ((segments.filter fun segment => !Path.isIdle segment).getLast?.filter
      fun name => name ≠ "..") = none)
    (hfollow : disk.follow segments place = .ok result) : disk.entry? result = some .folder := by
  -- on the last segment: an idle one stays in a folder, and the way up from a reached place is one
  induction segments using List.reverseRecOn generalizing result with
  | nil => exact Except.ok.inj hfollow ▸ hplace
  | append_singleton front last ih =>
    rw [follow_append_singleton] at hfollow
    cases hfront : disk.follow front place with
    | error error => simp [hfront] at hfollow
    | ok parent =>
      rw [hfront] at hfollow
      simp only at hfollow
      have hparent := entry?_of_step hfollow
      rw [step_eq hparent] at hfollow
      by_cases hidle : Path.isIdle last = true
      · rw [if_pos hidle] at hfollow
        exact Except.ok.inj hfollow ▸ hparent
      · have hup : last = ".." := by simpa [hidle] using hname
        rw [if_neg hidle, if_pos hup] at hfollow
        exact Except.ok.inj hfollow ▸ (hstart.follow hfront).up.2

theorem entry?_of_name?_eq_none (h : Path.name? path = none) (hresolve : disk.resolve path = .ok place) :
    disk.entry? place = some .folder := by
  obtain ⟨-, hfollow⟩ := resolve_eq_ok_iff.1 hresolve
  have haround := isAround_start path
  exact entry?_of_follow (.around haround) (entry?_of_isAround haround) h hfollow

end Disk

end PerkGraph
