import PerkGraph.Proofs.DiskPlaces
import PerkGraph.Store

/-!
# Programs on a disk

What the programs of the stores give on a disk, and the disk that they leave: one equation or equivalence for
each way of putting them together and for each file operation. Loading reads what is at a path
(`Disk.Agree.loaded`); creating folders adds folders and nothing else (`Disk.AddsFolders.createFolders`), and
where it has been done once it changes nothing any more (`Disk.perform_createFolders_of_keepsFolders`).
-/

namespace PerkGraph

/-! ## Programs on a disk -/

/-- What a program gives on a disk, and the disk that it leaves. -/
def Disk.perform {α : Type} (disk : Disk) (program : StateM Disk α) : α × Disk :=
  program.run disk

theorem Disk.perform_bind {α β : Type} (disk : Disk) (program : StateM Disk α)
    (continuation : α → StateM Disk β) :
    disk.perform (program >>= continuation) =
      (disk.perform program).2.perform (continuation (disk.perform program).1) := rfl

namespace StoreT

variable {α β : Type} {disk after next : Disk} {program : StoreT (StateM Disk) α}
  {continuation : α → StoreT (StateM Disk) β} {a : α} {b : β}

/-- What a program that may fail gives on a disk, and the disk that it leaves. -/
def runOn (program : StoreT (StateM Disk) α) (disk : Disk) : Stored α × Disk :=
  disk.perform program.run

theorem runOn_ofStored (result : Stored α) (disk : Disk) :
    (ofStored result : StoreT (StateM Disk) α).runOn disk = (result, disk) := rfl

theorem runOn_bind (program : StoreT (StateM Disk) α) (continuation : α → StoreT (StateM Disk) β)
    (disk : Disk) :
    (program >>= continuation).runOn disk =
      match program.runOn disk with
      | (.ok a, after) => (continuation a).runOn after
      | (.error error, after) => (.error error, after) := by
  unfold runOn
  rw [ExceptT.run_bind, Disk.perform_bind]
  rcases disk.perform program.run with ⟨_ | _, after⟩ <;> rfl

theorem runOn_bind_of_ok (h : program.runOn disk = (.ok a, after)) :
    (program >>= continuation).runOn disk = (continuation a).runOn after := by
  rw [runOn_bind, h]

theorem runOn_bind_eq_ok_iff :
    (program >>= continuation).runOn disk = (.ok b, next) ↔
      ∃ a after, program.runOn disk = (.ok a, after) ∧
        (continuation a).runOn after = (.ok b, next) := by
  constructor
  · intro h
    rw [runOn_bind] at h
    split at h
    · exact ⟨_, _, ‹_›, h⟩
    · cases h
  · rintro ⟨a, after, hprogram, hcontinuation⟩
    rw [runOn_bind_of_ok hprogram, hcontinuation]

theorem runOn_attempt (context : String) (operation : StateM Disk (Except OsError α)) (disk : Disk) :
    (attempt context operation).runOn disk =
      (Stored.ofCause context .os (disk.perform operation).1, (disk.perform operation).2) := rfl

theorem runOn_attempt_eq_ok_iff {context : String} {operation : StateM Disk (Except OsError α)} :
    (attempt context operation).runOn disk = (.ok a, after) ↔
      disk.perform operation = (.ok a, after) := by
  rw [runOn_attempt]
  rcases disk.perform operation with ⟨_ | _, last⟩ <;> simp [Stored.ofCause]

theorem runOn_within_of_ok (context : String) (h : program.runOn disk = (.ok a, after)) :
    (within context program).runOn disk = (.ok a, after) := by
  have hwithin : (within context program).runOn disk =
      ((program.runOn disk).1.mapError (StoreError.within context), (program.runOn disk).2) := rfl
  rw [hwithin, h]
  rfl

end StoreT

/-! ## File operations -/

namespace Disk

variable {disk next : Disk} {place : Place} {path text : String}

theorem perform_change (operation : Disk → Except OsError Disk) (disk : Disk) :
    disk.perform (change operation) =
      match operation disk with
      | .ok next => (.ok (), next)
      | .error error => (.error error, disk) := rfl

theorem perform_change_eq_ok_iff {operation : Disk → Except OsError Disk} {result : Unit} :
    disk.perform (change operation) = (.ok result, next) ↔ operation disk = .ok next := by
  rw [perform_change]
  cases operation disk <;> simp

theorem readText_eq_ok_iff :
    disk.readText path = .ok text ↔
      ∃ place, disk.resolve path = .ok place ∧ disk.entry? place = some (.file text) := by
  unfold readText
  cases disk.resolve path with
  | error error => simp
  | ok place =>
    rcases hentry : disk.entry? place with _ | _ | found <;> simp [hentry]

theorem writeText_eq_ok_iff :
    disk.writeText path text = .ok next ↔
      ∃ place, disk.resolve path = .ok place ∧ disk.entry? place ≠ some .folder ∧
        disk.put place (.file text) = next := by
  unfold writeText
  cases disk.resolve path with
  | error error => simp
  | ok place =>
    rcases hentry : disk.entry? place with _ | _ | found <;> simp [hentry]

theorem rename_eq_ok_iff {target : String} :
    disk.rename path target = .ok next ↔
      ∃ text source place, disk.readText path = .ok text ∧ disk.resolve path = .ok source ∧
        disk.resolveTarget target = .ok place ∧ (disk.erase source).put place (.file text) = next := by
  unfold rename
  cases disk.readText path with
  | error error => simp
  | ok text =>
    cases disk.resolve path with
    | error error => simp
    | ok source =>
      cases disk.resolveTarget target with
      | error error => simp
      | ok place => simp

end Disk

/-! ## Loading -/

namespace Disk

variable {α : Type} {disk next : Disk} {path context text : String}

/-- What is loaded from a file, and a default where there is no file. -/
def loaded (disk : Disk) (path context : String) (decode : String → Stored α) (default : α) : Stored α :=
  if disk.isThere path then
    match disk.readText path with
    | .ok text => decode text
    | .error error => .error { contexts := [context], cause := .os error }
  else .ok default

theorem loaded_of_readText {decode : String → Stored α} {default : α}
    (h : disk.readText path = .ok text) : disk.loaded path context decode default = decode text := by
  obtain ⟨place, hresolve, hentry⟩ := readText_eq_ok_iff.1 h
  have hthere : disk.isThere path = true := by simp [isThere, hresolve, hentry]
  rw [loaded, if_pos hthere, h]

/-- On both disks a path leads to the same, or nowhere. -/
structure Agree (disk next : Disk) (path : String) : Prop where
  keepsFolders : disk.KeepsFolders next
  keepsFolders' : next.KeepsFolders disk
  entry?_eq : ∀ place, disk.resolve path = .ok place → next.entry? place = disk.entry? place

namespace Agree

theorem isThere_eq (h : disk.Agree next path) : next.isThere path = disk.isThere path := by
  unfold isThere
  cases hresolve : disk.resolve path with
  | ok place => simp only [h.keepsFolders.resolve hresolve, h.entry?_eq place hresolve]
  | error error =>
    cases hnext : next.resolve path with
    | error error' => rfl
    | ok place => cases hresolve.symm.trans (h.keepsFolders'.resolve hnext)

theorem readText (h : disk.Agree next path) (hread : disk.readText path = .ok text) :
    next.readText path = .ok text := by
  obtain ⟨place, hresolve, hentry⟩ := readText_eq_ok_iff.1 hread
  exact readText_eq_ok_iff.2
    ⟨place, h.keepsFolders.resolve hresolve, (h.entry?_eq place hresolve).trans hentry⟩

theorem loaded (h : disk.Agree next path) {decode : String → Stored α} {default a : α}
    (hloaded : disk.loaded path context decode default = .ok a) :
    next.loaded path context decode default = .ok a := by
  unfold Disk.loaded at hloaded ⊢
  rw [h.isThere_eq]
  split at hloaded
  · rename_i hthere
    rw [if_pos hthere]
    split at hloaded
    · rename_i text hread
      rw [h.readText hread]
      exact hloaded
    · cases hloaded
  · rename_i hmissing
    rw [if_neg hmissing]
    exact hloaded

end Agree

end Disk

theorem StoreT.runOn_loaded {α : Type} (path context : String) (decode : String → Stored α)
    (default : α) (disk : Disk) :
    StoreT.runOn (do
      if ← (Files.isThere path : StateM Disk Bool) then
        let text ← StoreT.attempt context (Files.readText path)
        StoreT.ofStored (decode text)
      else return default) disk = (disk.loaded path context decode default, disk) := by
  rw [runOn_bind_of_ok (show runOn (liftM (Files.isThere path : StateM Disk Bool)) disk =
    (.ok (disk.isThere path), disk) from rfl), Disk.loaded]
  cases disk.isThere path with
  | false => rfl
  | true =>
    simp only [if_true]
    have hread : disk.perform (Files.readText path) = (disk.readText path, disk) := rfl
    rw [runOn_bind, runOn_attempt, hread]
    cases disk.readText path <;> rfl

theorem Session.runOn_load (path : String) (disk : Disk) :
    (Session.load path).runOn disk =
      (disk.loaded path ("read session " ++ path) (Session.ofStored path) {}, disk) :=
  StoreT.runOn_loaded path _ _ _ disk

theorem Config.runOn_load (path : String) (disk : Disk) :
    (Config.load path).runOn disk =
      (disk.loaded path ("read " ++ path) (Config.ofStored path) {}, disk) :=
  StoreT.runOn_loaded path _ _ _ disk

/-! ## Creating folders -/

theorem Path.segments_of_mem_frontsOfReversed {reversed : List String} {path : String}
    (hslash : ∀ segment ∈ reversed, '/' ∉ segment.toList) (h : path ∈ frontsOfReversed reversed) :
    ∃ front last, segments path = front ++ [last] ∧ last ≠ "" := by
  induction reversed with
  | nil => exact absurd h List.not_mem_nil
  | cons last rest ih =>
    have hrest : ∀ segment ∈ rest, '/' ∉ segment.toList := fun segment hsegment =>
      hslash segment (List.mem_cons_of_mem _ hsegment)
    rw [frontsOfReversed] at h
    split at h
    · exact ih hrest h
    · rename_i hidle
      rcases List.mem_cons.1 h with rfl | h
      · refine ⟨rest.reverse, last, Text.split_join (by simp) fun segment hsegment => ?_,
          ne_empty_of_not_isIdle (by simpa using hidle)⟩
        exact hslash segment (by simpa [or_comm] using hsegment)
      · exact ih hrest h

theorem Path.segments_of_mem_fronts {path folder : String} (h : folder ∈ fronts path) :
    ∃ front last, segments folder = front ++ [last] ∧ last ≠ "" :=
  segments_of_mem_frontsOfReversed
    (fun _ hsegment => Text.not_mem_of_mem_split (List.mem_reverse.1 hsegment)) h

namespace Disk

variable {disk next later : Disk} {place : Place} {path text : String}

/-- One disk has everything that the other has, and besides it at most folders. -/
def AddsFolders (disk next : Disk) : Prop :=
  ∀ place, next.entry? place = disk.entry? place ∨
    disk.entry? place = none ∧ next.entry? place = some .folder

namespace AddsFolders

theorem refl (disk : Disk) : disk.AddsFolders disk := fun _ => .inl rfl

theorem trans (h : disk.AddsFolders next) (hnext : next.AddsFolders later) :
    disk.AddsFolders later := by
  intro place
  rcases hnext place with heq | ⟨hnone, hfolder⟩
  · rw [heq]
    exact h place
  · rcases h place with heq | ⟨-, hfolder'⟩
    · exact .inr ⟨heq ▸ hnone, hfolder⟩
    · cases hnone.symm.trans hfolder'

theorem entry?_eq_file_iff (h : disk.AddsFolders next) :
    next.entry? place = some (.file text) ↔ disk.entry? place = some (.file text) := by
  rcases h place with heq | ⟨hnone, hfolder⟩
  · rw [heq]
  · simp [hnone, hfolder]

theorem keepsFolders (h : disk.AddsFolders next) : disk.KeepsFolders next := by
  intro place hplace
  rcases h place with heq | ⟨-, hfolder⟩
  · exact heq.trans hplace
  · exact hfolder

end AddsFolders

theorem exists_of_createFolder (h : disk.createFolder path = .ok next) :
    ∃ place name, disk.resolveLast path = .ok (place, name) ∧ disk.entry? place = none ∧
      next = disk.put place .folder := by
  unfold createFolder at h
  cases hlast : disk.resolveLast path with
  | error error => simp [hlast, bind, Except.bind] at h
  | ok found =>
    cases hentry : disk.entry? found.1 with
    | some entry => simp [hlast, hentry, bind, Except.bind] at h
    | none =>
      simp only [hlast, hentry, bind, Except.bind, Except.ok.injEq] at h
      exact ⟨found.1, found.2, rfl, hentry, h.symm⟩

theorem isAround_of_entry?_eq_none (h : disk.entry? place = none) : place.isAround = false :=
  @isAround_eq_false disk place (by rw [h]; exact nofun)

theorem AddsFolders.put (h : disk.entry? place = none) : disk.AddsFolders (disk.put place .folder) := by
  intro other
  rw [entry?_put (isAround_of_entry?_eq_none h)]
  split
  · rename_i heq
    exact .inr ⟨heq ▸ h, rfl⟩
  · exact .inl rfl

theorem isFolder_iff :
    disk.isFolder path = true ↔
      ∃ place, disk.resolve path = .ok place ∧ disk.entry? place = some .folder := by
  unfold isFolder
  cases disk.resolve path with
  | error error => simp
  | ok place => simp

theorem KeepsFolders.isFolder (h : disk.KeepsFolders next) (hfolder : disk.isFolder path = true) :
    next.isFolder path = true := by
  obtain ⟨place, hresolve, hentry⟩ := isFolder_iff.1 hfolder
  exact isFolder_iff.2 ⟨place, h.resolve hresolve, h place hentry⟩

theorem perform_ensureFolder (path : String) (disk : Disk) :
    disk.perform (Files.ensureFolder path) =
      match disk.createFolder path with
      | .ok next => (.ok (), next)
      | .error error => (if disk.isFolder path then .ok () else .error error, disk) := by
  have hcreate : disk.perform (Files.createFolder path) = _ :=
    perform_change (fun disk => disk.createFolder path) disk
  rw [Files.ensureFolder, perform_bind, hcreate]
  cases disk.createFolder path <;> rfl

/-- Creating folders one by one from the end of a path: the first is tried, and again after the others have
been created if that is what it takes. -/
theorem perform_createAlong_cons (path : String) (fronts : List String) (disk : Disk) :
    disk.perform (Files.createAlong (path :: fronts)) =
      match disk.perform (Files.ensureFolder path) with
      | (.error .notFound, after) =>
        match after.perform (Files.createAlong fronts) with
        | (.ok (), prepared) => prepared.perform (Files.ensureFolder path)
        | (.error error, prepared) => (.error error, prepared)
      | tried => tried := by
  rw [Files.createAlong, perform_bind]
  rcases disk.perform (Files.ensureFolder path) with ⟨_ | _, after⟩
  · rename_i error
    cases error <;> try rfl
    dsimp only
    rw [perform_bind]
    rcases after.perform (Files.createAlong fronts) with ⟨_ | _, prepared⟩ <;> rfl
  · rfl

theorem AddsFolders.ensureFolder (path : String) (disk : Disk) :
    disk.AddsFolders (disk.perform (Files.ensureFolder path)).2 := by
  rw [perform_ensureFolder]
  cases hcreate : disk.createFolder path with
  | error error => exact .refl disk
  | ok next =>
    obtain ⟨place, _, -, hnone, rfl⟩ := exists_of_createFolder hcreate
    exact .put hnone

theorem AddsFolders.createAlong (paths : List String) (disk : Disk) :
    disk.AddsFolders (disk.perform (Files.createAlong paths)).2 := by
  induction paths generalizing disk with
  | nil => exact .refl disk
  | cons path fronts ih =>
    have hfirst := AddsFolders.ensureFolder path disk
    rw [perform_createAlong_cons]
    split
    · rename_i after htried
      rw [htried] at hfirst
      have hfronts := ih after
      split
      · rename_i prepared hcreated
        rw [hcreated] at hfronts
        exact (hfirst.trans hfronts).trans (.ensureFolder path prepared)
      · rename_i hrefused
        rw [hrefused] at hfronts
        exact hfirst.trans hfronts
    · exact hfirst

theorem AddsFolders.createFolders (path : String) (disk : Disk) :
    disk.AddsFolders (disk.perform (Files.createFolders path)).2 :=
  .createAlong (Path.fronts path) disk

section Folders

variable {front : List String} {last : String}

theorem isFolder_of_ensureFolder (hsegments : Path.segments path = front ++ [last]) (hlast : last ≠ "")
    (h : disk.perform (Files.ensureFolder path) = (.ok (), next)) : next.isFolder path = true := by
  rw [perform_ensureFolder] at h
  cases hcreate : disk.createFolder path with
  | error error =>
    simp only [hcreate, Prod.mk.injEq] at h
    obtain ⟨hresult, rfl⟩ := h
    by_contra hfolder
    rw [if_neg hfolder] at hresult
    cases hresult
  | ok created =>
    simp only [hcreate, Prod.mk.injEq, true_and] at h
    obtain ⟨place, name, hresolve, hnone, rfl⟩ := exists_of_createFolder hcreate
    subst h
    have hplace := ((resolveLast_eq_ok_iff hsegments hlast).1 hresolve).1
    refine isFolder_iff.2 ⟨place, (AddsFolders.put hnone).keepsFolders.resolve hplace, ?_⟩
    rw [entry?_put (isAround_of_entry?_eq_none hnone), if_pos rfl]

theorem perform_ensureFolder_of_isFolder (hsegments : Path.segments path = front ++ [last])
    (hlast : last ≠ "") (h : disk.isFolder path = true) :
    disk.perform (Files.ensureFolder path) = (.ok (), disk) := by
  rw [perform_ensureFolder]
  cases hcreate : disk.createFolder path with
  | error error => simp only [h, if_true]
  | ok created =>
    obtain ⟨place, name, hresolve, hnone, -⟩ := exists_of_createFolder hcreate
    obtain ⟨found, hfound, hfolder⟩ := isFolder_iff.1 h
    have hplace := ((resolveLast_eq_ok_iff hsegments hlast).1 hresolve).1
    obtain rfl : place = found := Except.ok.inj (hplace.symm.trans hfound)
    cases hnone.symm.trans hfolder

/-- Once the folders of a path have been created, it takes nothing to create them. -/
theorem perform_createFolders_of_keepsFolders
    (h : disk.perform (Files.createFolders path) = (.ok (), next)) (hlater : next.KeepsFolders later) :
    later.perform (Files.createFolders path) = (.ok (), later) := by
  unfold Files.createFolders at h ⊢
  cases hfronts : Path.fronts path with
  | nil => rfl
  | cons folder fronts =>
    obtain ⟨front, last, hsegments, hlast⟩ : ∃ front last, Path.segments folder = front ++ [last] ∧
        last ≠ "" := Path.segments_of_mem_fronts (hfronts ▸ List.mem_cons_self)
    -- whichever way the creation went, the last thing it did was to ensure the whole path
    have hfolder : next.isFolder folder = true := by
      rw [hfronts, perform_createAlong_cons] at h
      split at h
      · split at h
        · exact isFolder_of_ensureFolder hsegments hlast h
        · cases h
      · exact isFolder_of_ensureFolder hsegments hlast h
    rw [perform_createAlong_cons,
      perform_ensureFolder_of_isFolder hsegments hlast (hlater.isFolder hfolder)]

end Folders

end Disk

end PerkGraph
