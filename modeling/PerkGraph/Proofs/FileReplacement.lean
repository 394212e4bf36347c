import PerkGraph.Proofs.DiskPrograms

/-!
# Replacing a file

A file is replaced by way of a file beside it. What comes of it on a disk (`replaceFile_spec`): the file has
the text, the file beside it is gone, and no other file has changed. At most some folders are missing before
(`Disk.exists_canReplace`); once they are there, the file can be replaced again and again
(`Disk.CanReplace.run`, `Disk.CanReplace.replaced`), whatever happens to other files in between
(`Disk.CanReplace.of_keepsFolders`).
-/

namespace PerkGraph

/-! ## Paths of files -/

/-- A path that ends in a name, and neither in a slash nor in dots. -/
def Path.EndsInName (path : String) : Prop :=
  path.toList.getLast? ≠ some '/' ∧
    ∃ front last, segments path = front ++ [last] ∧ isIdle last = false ∧ last ≠ ".."

/-- The path of the file by way of which a file is replaced. -/
def Path.beside (path : String) : String :=
  sibling path ((name? path).getD "" ++ ".tmp")

namespace Disk

variable {disk next later : Disk} {place beside other : Place} {path text : String}

theorem ne_empty_of_resolveLast {found : Place × String} (h : disk.resolveLast path = .ok found) :
    path ≠ "" := by
  rintro rfl
  simp [resolveLast, checkPath, bind, Except.bind] at h

/-- A file may take the place of a path that ends in a name, unless there is a folder. -/
theorem resolveTarget_eq_ok_iff :
    disk.resolveTarget path = .ok place ↔
      Path.EndsInName path ∧ disk.resolve path = .ok place ∧ disk.entry? place ≠ some .folder := by
  obtain ⟨front, last, hsegments⟩ := Path.exists_segments_eq path
  constructor
  · intro h
    unfold resolveTarget at h
    cases hfound : disk.resolveLast path with
    | error error => simp [hfound, bind, Except.bind] at h
    | ok found =>
      simp only [hfound, bind, Except.bind] at h
      split at h
      · cases h
      · rename_i hdots
        split at h
        · cases h
        · rename_i hend
          split at h
          · cases h
          · rename_i hfree
            obtain rfl := Except.ok.inj h
            have hlast : last ≠ "" :=
              Path.last_ne_empty hsegments (ne_empty_of_resolveLast hfound) hend
            obtain ⟨hresolve, hname⟩ := (resolveLast_eq_ok_iff hsegments hlast).1 hfound
            rw [hname, not_or] at hdots
            refine ⟨⟨hend, front, last, hsegments, ?_, hdots.2⟩, hresolve, hfree⟩
            simp [Path.isIdle, hlast, hdots.1]
  · rintro ⟨⟨hend, front', last', hsegments', hidle, hup⟩, hresolve, hfree⟩
    have hlast := Path.ne_empty_of_not_isIdle hidle
    have hfound := (resolveLast_eq_ok_iff hsegments' hlast).2 ⟨hresolve, rfl⟩
    have hdot : last' ≠ "." := by
      rintro rfl
      exact absurd hidle (by decide)
    simp [resolveTarget, hfound, hdot, hup, hend, hfree, bind, Except.bind]

/-! ## Replacing -/

/-- A disk on which a file can be replaced, with the place that it takes and the place of the file beside
it. -/
structure CanReplace (disk : Disk) (path : String) (place beside : Place) : Prop where
  parent : ∃ parent, Path.parent? path = some parent ∧
    (parent ≠ "" → ∀ later : Disk, disk.KeepsFolders later →
      later.perform (Files.createFolders parent) = (.ok (), later))
  target : disk.resolveTarget path = .ok place
  source : disk.resolve (Path.beside path) = .ok beside
  source_free : disk.entry? beside ≠ some .folder

/-- The disk with a file replaced by way of a file beside it. -/
def replaced (disk : Disk) (place beside : Place) (text : String) : Disk :=
  (disk.erase beside).put place (.file text)

/-- The steps of a replacement. -/
theorem replaceFile_eq_ok_iff :
    (replaceFile path text).runOn disk = (.ok (), next) ↔
      ∃ parent prepared written, Path.parent? path = some parent ∧
        (if parent = "" then disk = prepared
          else disk.perform (Files.createFolders parent) = (.ok (), prepared)) ∧
        prepared.writeText (Path.beside path) text = .ok written ∧
        written.rename (Path.beside path) path = .ok next := by
  have hswap (prepared : Disk) (first second : String) :
      StoreT.runOn (do
        StoreT.attempt first (Files.writeText (Path.beside path) text)
        StoreT.attempt second (Files.rename (Path.beside path) path)) prepared = (.ok (), next) ↔
      ∃ written, prepared.writeText (Path.beside path) text = .ok written ∧
        written.rename (Path.beside path) path = .ok next := by
    have hwrite {result : Unit} {written : Disk} :
        prepared.perform (Files.writeText (Path.beside path) text) = (.ok result, written) ↔
          prepared.writeText (Path.beside path) text = .ok written := perform_change_eq_ok_iff
    have hrename {written : Disk} :
        written.perform (Files.rename (Path.beside path) path) = (.ok (), next) ↔
          written.rename (Path.beside path) path = .ok next := perform_change_eq_ok_iff
    simp only [StoreT.runOn_bind_eq_ok_iff, StoreT.runOn_attempt_eq_ok_iff, hwrite, hrename,
      exists_const]
  unfold replaceFile
  cases Path.parent? path with
  | none => simp [StoreT.runOn_ofStored]
  | some parent =>
    -- a path of one part needs no folders
    by_cases h : parent = ""
    · simp only [h, ne_eq, not_true_eq_false, if_false]
      refine (hswap disk _ _).trans ?_
      simp
    · simp only [h, ne_eq, not_false_eq_true, if_true]
      rw [StoreT.runOn_bind_eq_ok_iff]
      simp only [StoreT.runOn_attempt_eq_ok_iff]
      constructor
      · rintro ⟨⟨⟩, prepared, hprepared, hrest⟩
        obtain ⟨written, hwritten, hrenamed⟩ := (hswap prepared _ _).1 hrest
        exact ⟨parent, prepared, written, rfl, (if_neg h).mpr hprepared, hwritten, hrenamed⟩
      · rintro ⟨_, prepared, written, ⟨⟩, hprepared, hwritten, hrenamed⟩
        exact ⟨(), prepared, (if_neg h).mp hprepared,
          (hswap prepared _ _).2 ⟨written, hwritten, hrenamed⟩⟩

/-! ### The places -/

theorem KeepsFolders.put (hfree : disk.entry? place ≠ some .folder) (entry : DiskEntry) :
    disk.KeepsFolders (disk.put place entry) := by
  intro other hother
  rw [entry?_put (isAround_eq_false hfree), if_neg]
  · exact hother
  · rintro rfl
    exact hfree hother

theorem KeepsFolders.of_put (hfree : disk.entry? place ≠ some .folder) (text : String) :
    (disk.put place (.file text)).KeepsFolders disk := by
  intro other hother
  rw [entry?_put (isAround_eq_false hfree)] at hother
  split at hother
  · cases hother
  · exact hother

theorem KeepsFolders.resolveTarget (h : disk.KeepsFolders next)
    (htarget : disk.resolveTarget path = .ok place) (hfree : next.entry? place ≠ some .folder) :
    next.resolveTarget path = .ok place := by
  obtain ⟨hname, hresolve, -⟩ := resolveTarget_eq_ok_iff.1 htarget
  exact resolveTarget_eq_ok_iff.2 ⟨hname, h.resolve hresolve, hfree⟩

theorem readText_put (h : disk.resolve path = .ok place) (hfree : disk.entry? place ≠ some .folder) :
    (disk.put place (.file text)).readText path = .ok text := by
  refine readText_eq_ok_iff.2 ⟨place, (KeepsFolders.put hfree _).resolve h, ?_⟩
  rw [entry?_put (isAround_eq_false hfree), if_pos rfl]

/-- The name of the file beside another one is not the name of the other one. -/
theorem place_ne_of_endsInName (hpath : Path.EndsInName path) (hplace : disk.resolve path = .ok place)
    (hbeside : disk.resolve (Path.beside path) = .ok beside) : place ≠ beside := by
  obtain ⟨-, front, last, hsegments, hidle, hup⟩ := hpath
  have hslash : '/' ∉ (last ++ ".tmp").toList := by
    rw [String.toList_append, List.mem_append, not_or]
    exact ⟨Path.slash_not_mem hsegments, by decide⟩
  obtain ⟨around, haround⟩ : ∃ around, Path.segments (Path.beside path) = around ++ [last ++ ".tmp"] := by
    have hname := Path.name?_eq_some hsegments hidle hup
    rw [Path.beside, Path.sibling_of_name? _ hname, hname]
    exact Path.segments_join _ hslash
  have hlong (short : String) (hshort : short.toList.length < 4) : last ++ ".tmp" ≠ short := by
    rintro rfl
    simp only [String.toList_append, List.length_append] at hshort
    exact absurd hshort (Nat.not_lt.2 (Nat.le_add_left 4 _))
  have hidle' : Path.isIdle (last ++ ".tmp") = false := by
    rw [Path.isIdle, beq_eq_false_iff_ne.2 (hlong "" (by decide)),
      beq_eq_false_iff_ne.2 (hlong "." (by decide))]
    rfl
  obtain ⟨parent, rfl⟩ := resolve_eq_append hplace hsegments hidle hup
  obtain ⟨parent', rfl⟩ := resolve_eq_append hbeside haround hidle' (hlong ".." (by decide))
  intro heq
  have hlast : last = last ++ ".tmp" := (List.append_singleton_inj.1 heq).2
  have hlength := congrArg (fun name : String => name.toList.length) hlast
  simp at hlength

namespace CanReplace

/-- A path of one part needs no folder but the working folder. -/
theorem of_parent_eq_empty (hparent : Path.parent? path = some "")
    (htarget : disk.resolveTarget path = .ok place)
    (hsource : disk.resolve (Path.beside path) = .ok beside)
    (hfree : disk.entry? beside ≠ some .folder) : disk.CanReplace path place beside :=
  ⟨⟨"", hparent, fun hne => absurd rfl hne⟩, htarget, hsource, hfree⟩

theorem place_ne_beside (h : disk.CanReplace path place beside) : place ≠ beside := by
  obtain ⟨hname, hresolve, -⟩ := resolveTarget_eq_ok_iff.1 h.target
  exact place_ne_of_endsInName hname hresolve h.source

theorem place_free (h : disk.CanReplace path place beside) : disk.entry? place ≠ some .folder :=
  (resolveTarget_eq_ok_iff.1 h.target).2.2

/-- What stands where after a replacement: nothing beside the file, and all else is as it was. -/
theorem entry?_replaced (h : disk.CanReplace path place beside) (text : String) (other : Place) :
    entry? (disk.replaced place beside text) other =
      if other = place then some (.file text) else if other = beside then none
      else disk.entry? other := by
  rw [Disk.replaced, entry?_put (isAround_eq_false h.place_free),
    entry?_erase (isAround_eq_false h.source_free)]

theorem keepsFolders_replaced (h : disk.CanReplace path place beside) (text : String) :
    disk.KeepsFolders (disk.replaced place beside text) := by
  intro other hother
  rw [h.entry?_replaced, if_neg, if_neg]
  · exact hother
  · rintro rfl
    exact h.source_free hother
  · rintro rfl
    exact h.place_free hother

theorem keepsFolders_of_replaced (h : disk.CanReplace path place beside) (text : String) :
    (disk.replaced place beside text).KeepsFolders disk := by
  intro other hother
  rw [h.entry?_replaced] at hother
  split at hother
  · cases hother
  · split at hother
    · cases hother
    · exact hother

/-- Where a file can be replaced once, it can be replaced again as long as the folders are there and no folder
has come in its way. -/
theorem of_keepsFolders (h : disk.CanReplace path place beside) (hlater : disk.KeepsFolders later)
    (hplace : later.entry? place ≠ some .folder) (hbeside : later.entry? beside ≠ some .folder) :
    later.CanReplace path place beside where
  parent := by
    obtain ⟨parent, hparent, hfolders⟩ := h.parent
    exact ⟨parent, hparent, fun hne after hafter => hfolders hne after (hlater.trans hafter)⟩
  target := hlater.resolveTarget h.target hplace
  source := hlater.resolve h.source
  source_free := hbeside

theorem replaced (h : disk.CanReplace path place beside) (text : String) :
    (disk.replaced place beside text).CanReplace path place beside := by
  refine h.of_keepsFolders (h.keepsFolders_replaced text) ?_ ?_
  · rw [h.entry?_replaced, if_pos rfl]
    exact nofun
  · rw [h.entry?_replaced, if_neg h.place_ne_beside.symm, if_pos rfl]
    exact nofun

/-! ### The replacement -/

/-- Writing beside and renaming. -/
theorem swap (h : disk.CanReplace path place beside) (text : String) :
    ∃ written, disk.writeText (Path.beside path) text = .ok written ∧
      written.rename (Path.beside path) path = .ok (disk.replaced place beside text) := by
  have hkeeps := KeepsFolders.put h.source_free (.file text)
  have hplace : entry? (disk.put beside (.file text)) place ≠ some .folder := by
    rw [entry?_put (isAround_eq_false h.source_free), if_neg h.place_ne_beside]
    exact h.place_free
  refine ⟨disk.put beside (.file text), writeText_eq_ok_iff.2 ⟨beside, h.source, h.source_free, rfl⟩, ?_⟩
  exact rename_eq_ok_iff.2 ⟨text, beside, place, readText_put h.source h.source_free,
    hkeeps.resolve h.source, hkeeps.resolveTarget h.target hplace, by rw [erase_put, Disk.replaced]⟩

theorem run (h : disk.CanReplace path place beside) (text : String) :
    (replaceFile path text).runOn disk = (.ok (), disk.replaced place beside text) := by
  obtain ⟨parent, hparent, hfolders⟩ := h.parent
  obtain ⟨written, hwrite, hrename⟩ := h.swap text
  refine replaceFile_eq_ok_iff.2 ⟨parent, disk, written, hparent, ?_, hwrite, hrename⟩
  split
  · rfl
  · rename_i hne
    exact hfolders hne disk (.refl disk)

/-- Of two replacements one after the other, the second alone remains. -/
theorem replaced_replaced (h : disk.CanReplace path place beside) (first second : String) :
    Disk.replaced (disk.replaced place beside first) place beside second =
      disk.replaced place beside second := by
  unfold Disk.replaced
  rw [erase_put_of_ne h.place_ne_beside, erase_erase, put_put]

end CanReplace

/-- **What it takes to replace a file**: at most some folders, whatever its new text. -/
theorem exists_canReplace (h : (replaceFile path text).runOn disk = (.ok (), next)) :
    ∃ prepared place beside, disk.AddsFolders prepared ∧ prepared.CanReplace path place beside ∧
      next = prepared.replaced place beside text ∧
      ∀ other, (replaceFile path other).runOn disk = (.ok (), prepared.replaced place beside other) := by
  obtain ⟨parent, prepared, written, hparent, hprepared, hwrite, hrename⟩ := replaceFile_eq_ok_iff.1 h
  obtain ⟨beside, hbeside, hfree, rfl⟩ := writeText_eq_ok_iff.1 hwrite
  obtain ⟨text', source, place, hread, hsource, htarget, rfl⟩ := rename_eq_ok_iff.1 hrename
  have hkeeps := KeepsFolders.put hfree (.file text)
  obtain rfl : text = text' := Except.ok.inj ((readText_put hbeside hfree).symm.trans hread)
  obtain rfl : beside = source := Except.ok.inj ((hkeeps.resolve hbeside).symm.trans hsource)
  have hplace : prepared.entry? place ≠ some .folder := fun hfolder =>
    (resolveTarget_eq_ok_iff.1 htarget).2.2 (hkeeps place hfolder)
  have hadds : disk.AddsFolders prepared := by
    split at hprepared
    · exact hprepared ▸ .refl disk
    · have hcreated := AddsFolders.createFolders parent disk
      rwa [hprepared] at hcreated
  have hcan : prepared.CanReplace path place beside := by
    refine ⟨⟨parent, hparent, fun hne later hlater => ?_⟩,
      (KeepsFolders.of_put hfree text).resolveTarget htarget hplace, hbeside, hfree⟩
    exact perform_createFolders_of_keepsFolders ((if_neg hne).mp hprepared) hlater
  refine ⟨prepared, place, beside, hadds, hcan, by rw [erase_put, Disk.replaced], fun other => ?_⟩
  obtain ⟨rewritten, hrewrite, hswap⟩ := hcan.swap other
  exact replaceFile_eq_ok_iff.2 ⟨parent, prepared, rewritten, hparent, hprepared, hrewrite, hswap⟩

/-! ### What is there afterwards -/

namespace CanReplace

theorem resolve_replaced (h : disk.CanReplace path place beside) (text : String) :
    resolve (disk.replaced place beside text) path = .ok place :=
  (h.keepsFolders_replaced text).resolve (resolveTarget_eq_ok_iff.1 h.target).2.1

theorem resolve_beside (h : disk.CanReplace path place beside) (text : String) :
    resolve (disk.replaced place beside text) (Path.beside path) = .ok beside :=
  (h.keepsFolders_replaced text).resolve h.source

/-- What does not lead to the file is the same whatever the file holds. -/
theorem agree (h : disk.CanReplace path place beside) {other : String} (first second : String)
    (hother : ∀ found, resolve (disk.replaced place beside first) other = .ok found → found ≠ place) :
    Agree (disk.replaced place beside first) (disk.replaced place beside second) other where
  keepsFolders := (h.keepsFolders_of_replaced first).trans (h.keepsFolders_replaced second)
  keepsFolders' := (h.keepsFolders_of_replaced second).trans (h.keepsFolders_replaced first)
  entry?_eq found hfound := by
    rw [h.entry?_replaced, h.entry?_replaced, if_neg (hother found hfound), if_neg (hother found hfound)]

theorem readText_of_ne {prepared : Disk} (h : prepared.CanReplace path place beside)
    (hadds : disk.AddsFolders prepared) {other content : String}
    (hread : disk.readText other = .ok content)
    (hother : ∀ found, resolve (prepared.replaced place beside text) other = .ok found →
      found ≠ place ∧ found ≠ beside) :
    readText (prepared.replaced place beside text) other = .ok content := by
  obtain ⟨found, hfound, hentry⟩ := readText_eq_ok_iff.1 hread
  have hresolve := (hadds.keepsFolders.trans (h.keepsFolders_replaced text)).resolve hfound
  obtain ⟨hplace, hbeside⟩ := hother found hresolve
  refine readText_eq_ok_iff.2 ⟨found, hresolve, ?_⟩
  rw [h.entry?_replaced, if_neg hplace, if_neg hbeside]
  exact hadds.entry?_eq_file_iff.2 hentry

theorem readText_replaced (h : disk.CanReplace path place beside) (text : String) :
    readText (disk.replaced place beside text) path = .ok text := by
  refine readText_eq_ok_iff.2 ⟨place, h.resolve_replaced text, ?_⟩
  rw [h.entry?_replaced, if_pos rfl]

theorem isThere_beside (h : disk.CanReplace path place beside) (text : String) :
    isThere (disk.replaced place beside text) (Path.beside path) = false := by
  rw [isThere, h.resolve_beside text]
  simp only [h.entry?_replaced, if_neg h.place_ne_beside.symm, if_true, Option.isSome_none]

end CanReplace

/-! ### Disks on which a file can be written -/

/-- A disk on which the file at a path can be written. -/
def Accepts (disk : Disk) (path : String) : Prop :=
  ∃ text next, (replaceFile path text).runOn disk = (.ok (), next)

theorem CanReplace.accepts (h : disk.CanReplace path place beside) : disk.Accepts path :=
  ⟨"", _, h.run ""⟩

/-- Where one text can be written, every text can, and the file can be written again. -/
theorem Accepts.exists_replaceFile (h : disk.Accepts path) (text : String) :
    ∃ next, (replaceFile path text).runOn disk = (.ok (), next) ∧ next.readText path = .ok text ∧
      next.Accepts path := by
  obtain ⟨other, next, hreplace⟩ := h
  obtain ⟨prepared, place, beside, -, hcan, -, hall⟩ := Disk.exists_canReplace hreplace
  exact ⟨prepared.replaced place beside text, hall text, hcan.readText_replaced text,
    (hcan.replaced text).accepts⟩

end Disk

variable {disk next : Disk} {path text : String}

/-- **A replaced file** has the text, the file beside it is gone, and every other file is as it was. -/
theorem replaceFile_spec (h : (replaceFile path text).runOn disk = (.ok (), next)) :
    next.readText path = .ok text ∧ next.isThere (Path.beside path) = false ∧
    ∃ place beside, next.resolve path = .ok place ∧ next.resolve (Path.beside path) = .ok beside ∧
      ∀ other content, other ≠ place → other ≠ beside →
        (next.entry? other = some (.file content) ↔ disk.entry? other = some (.file content)) := by
  obtain ⟨prepared, place, beside, hadds, hcan, rfl, -⟩ := Disk.exists_canReplace h
  refine ⟨hcan.readText_replaced text, hcan.isThere_beside text, place, beside,
    hcan.resolve_replaced text, hcan.resolve_beside text, ?_⟩
  intro other content hplace hbeside
  rw [hcan.entry?_replaced, if_neg hplace, if_neg hbeside]
  exact hadds.entry?_eq_file_iff

end PerkGraph
