import PerkGraph.Proofs.FileReplacement
import PerkGraph.Proofs.StoredForms

/-!
# Contract files

A contract is built again from its own records (`Contract.build_records`), and what is saved of it is loaded
again as the same contract. A file may leave the name of its contract to the path; no contract that is loaded
is without a name (`Contract.name_ne_empty_of_load`), so what is saved of it does not depend on the path any
more. With a name it can be saved where a file can be written, as often as one likes (`Contract.exists_save`).
Main statement: `Contract.files_lossless`.
-/

namespace PerkGraph

/-! ## Names -/

theorem Path.stem_ne_empty {name : String} (h : name ≠ "") : stem name ≠ "" := by
  unfold stem
  dsimp only
  split
  · exact h
  · rename_i hfront
    intro hempty
    have hlist := congrArg String.toList hempty
    rw [String.toList_ofList] at hlist
    exact hfront (List.reverse_eq_nil_iff.1 hlist)

theorem Path.name?_ne_empty {path name : String} (h : name? path = some name) : name ≠ "" := by
  obtain ⟨hlast, -⟩ := Option.filter_eq_some_iff.1 h
  have hmem := List.mem_of_getLast? hlast
  exact ne_empty_of_not_isIdle (by simpa using (List.mem_filter.1 hmem).2)

namespace Disk

variable {disk : Disk} {path text : String}

/-- A file has a name: the folder above is no file. -/
theorem exists_name_of_readText (h : disk.readText path = .ok text) :
    ∃ name, Path.name? path = some name := by
  obtain ⟨place, hresolve, hfile⟩ := readText_eq_ok_iff.1 h
  cases hname : Path.name? path with
  | some name => exact ⟨name, rfl⟩
  | none => cases (entry?_of_name?_eq_none hname hresolve).symm.trans hfile

end Disk

namespace Contract

variable {contract : Contract} {disk after : Disk} {path text : String}

/-! ## Records -/

theorem collect_map_toRecord {nodes built : List Node} (hasc : IsAscending Node.id (built ++ nodes))
    (hids : ∀ node ∈ nodes, isNodeId node.id = true) :
    collect (nodes.map Node.toRecord) built = .ok (built ++ nodes) := by
  -- the records ascend, so each node goes to the end of what is built before it
  induction nodes generalizing built with
  | nil => rw [List.map_nil, collect, List.append_nil]
  | cons node rest ih =>
    have hlt : ∀ other ∈ built, other.id < node.id := fun other hother =>
      (List.pairwise_append.1 hasc).2.2 other hother node List.mem_cons_self
    have hnew : (built.any fun other => other.id == node.toRecord.id) = false := by
      refine List.any_eq_false.2 fun other hother heq => ?_
      have hid : other.id = node.id := eq_of_beq heq
      exact String.lt_irrefl _ (hid ▸ hlt other hother)
    have hid : isNodeId node.toRecord.id = true := hids node List.mem_cons_self
    rw [List.map_cons, collect, hid, hnew, Node.ofRecord_toRecord, insertAscending_of_forall_lt hlt]
    have hassoc : built ++ [node] ++ rest = built ++ node :: rest := by
      rw [List.append_assoc, List.singleton_append]
    have hrest := ih (hassoc ▸ hasc) fun other hother => hids other (List.mem_cons_of_mem _ hother)
    rwa [hassoc] at hrest

/-- **A contract is built again from its name and its records.** -/
theorem build_records (contract : Contract) : build contract.name contract.records = .ok contract :=
  build_of_collect (collect_map_toRecord contract.ascending contract.wellFormed)

/-! ## Files -/

/-- A file holds the contract with the nodes of its records, named as the file says or else after its path. -/
theorem ofStored_of_ofText {file : ContractFile}
    (hfile : (ContractFile.ofText text : Except (Json.Fault Empty) ContractFile) = .ok file)
    (hname : (if file.name = "" then ((Path.name? path).map Path.stem).getD "" else file.name) =
      contract.name)
    (hnodes : collect file.nodes [] = .ok contract.nodes) : ofStored path text = .ok contract := by
  have hbuild : build contract.name file.nodes = .ok contract := build_of_collect hnodes
  simp only [ofStored, hfile, hname, Stored.ofCause, hbuild, bind, Except.bind]

/-- What is stored of a contract with a name is the contract, under any path. -/
theorem ofStored_toText (path : String) (hname : contract.name ≠ "") :
    ofStored path contract.toFile.toText = .ok contract :=
  ofStored_of_ofText (ContractFile.ofText_toText contract.toFile) (if_neg hname)
    (collect_of_build contract.build_records)

theorem runOn_load_eq_ok_iff :
    (load path).runOn disk = (.ok contract, after) ↔
      disk = after ∧ ∃ text, disk.readText path = .ok text ∧ ofStored path text = .ok contract := by
  have hread (text : String) (next : Disk) :
      disk.perform (Files.readText path) = (.ok text, next) ↔
        disk.readText path = .ok text ∧ disk = next := Prod.ext_iff
  unfold load
  simp only [StoreT.runOn_bind_eq_ok_iff, StoreT.runOn_attempt_eq_ok_iff, StoreT.runOn_ofStored,
    Prod.mk.injEq, hread]
  constructor
  · rintro ⟨text, _, ⟨hread, rfl⟩, hstored, rfl⟩
    exact ⟨rfl, text, hread, hstored⟩
  · rintro ⟨rfl, text, hread, hstored⟩
    exact ⟨text, disk, ⟨hread, rfl⟩, hstored, rfl⟩

theorem exists_of_ofStored (h : ofStored path text = .ok contract) :
    ∃ file : ContractFile, contract.name =
      if file.name = "" then ((Path.name? path).map Path.stem).getD "" else file.name := by
  unfold ofStored at h
  cases hfile : (ContractFile.ofText text : Except (Json.Fault Empty) ContractFile) with
  | error error => simp [hfile, Stored.ofCause, bind, Except.bind] at h
  | ok file =>
    simp only [hfile, Stored.ofCause, bind, Except.bind] at h
    split at h
    · rename_i hbuild
      obtain rfl := Except.ok.inj h
      exact ⟨file, name_of_build hbuild⟩
    · cases h

/-- A contract that is loaded has a name. -/
theorem name_ne_empty_of_load (h : (load path).runOn disk = (.ok contract, after)) :
    contract.name ≠ "" := by
  obtain ⟨-, text, hread, hstored⟩ := runOn_load_eq_ok_iff.1 h
  obtain ⟨name, hname⟩ := Disk.exists_name_of_readText hread
  obtain ⟨file, hfile⟩ := exists_of_ofStored hstored
  rw [hfile, hname]
  split
  · exact Path.stem_ne_empty (Path.name?_ne_empty hname)
  · assumption

theorem load_of_readText (hname : contract.name ≠ "")
    (h : disk.readText path = .ok contract.toFile.toText) :
    (load path).runOn disk = (.ok contract, disk) :=
  runOn_load_eq_ok_iff.2 ⟨rfl, _, h, ofStored_toText path hname⟩

/-- A contract with a name can be saved where a file can be written, is loaded from there, and can be saved
again. -/
theorem exists_save (h : disk.Accepts path) (hname : contract.name ≠ "") :
    ∃ after, (contract.save path).runOn disk = (.ok (), after) ∧
      after.readText path = .ok contract.toFile.toText ∧ after.Accepts path ∧
      (load path).runOn after = (.ok contract, after) := by
  obtain ⟨after, hsave, hread, haccepts⟩ := h.exists_replaceFile contract.toFile.toText
  exact ⟨after, hsave, hread, haccepts, load_of_readText hname hread⟩

/-- **Contracts survive storing.** Every contract is built again from its name and its records. Where a file
can be written, every contract with a name can be saved, is loaded as the same contract, and the file can be
written again. Whatever contract is loaded from whatever file, it is saved, loaded as an equal contract and
saved a second time, and both files have the same text. -/
theorem files_lossless :
    (∀ contract : Contract, build contract.name contract.records = .ok contract) ∧
    (∀ (contract : Contract) (before : Disk) (target : String), contract.name ≠ "" →
      before.Accepts target → ∃ after, (contract.save target).runOn before = (.ok (), after) ∧
        (load target).runOn after = (.ok contract, after) ∧ after.Accepts target) ∧
    ∀ (disk : Disk) (path : String) (contract : Contract),
      (load path).runOn disk = (.ok contract, disk) →
      ∀ (before : Disk) (target : String), before.Accepts target →
        ∃ after loaded text, (contract.save target).runOn before = (.ok (), after) ∧
          (load target).runOn after = (.ok loaded, after) ∧ loaded = contract ∧
          text = contract.toFile.toText ∧ after.readText target = .ok text ∧ after.Accepts target ∧
          ∀ (later : Disk) (again : String), later.Accepts again →
            ∃ last, (loaded.save again).runOn later = (.ok (), last) ∧ last.readText again = .ok text ∧
              (load again).runOn last = (.ok contract, last) := by
  refine ⟨build_records, fun contract before target hname hbefore => ?_,
    fun disk path contract hload before target hbefore => ?_⟩
  · obtain ⟨after, hsave, -, haccepts, hback⟩ := exists_save hbefore hname
    exact ⟨after, hsave, hback, haccepts⟩
  · have hname := name_ne_empty_of_load hload
    obtain ⟨after, hsave, hread, haccepts, hback⟩ := exists_save hbefore hname
    refine ⟨after, contract, contract.toFile.toText, hsave, hback, rfl, rfl, hread, haccepts, ?_⟩
    intro later again hlater
    obtain ⟨last, hlast, hlastRead, -, hlastLoad⟩ := exists_save hlater hname
    exact ⟨last, hlast, hlastRead, hlastLoad⟩

/-- A file without a name, its nodes out of order and its rule texts untidy, is loaded as a contract with the
name of the file. Saved over the file it came from, the contract is loaded again, and saved again as it is. -/
theorem files_lossless_untidy :
    let untidy := "\x7b\"nodes\": [" ++
      "\x7b\"id\": \"safe\", \"effect1\": \" \", \"effect2\": \" None;+;5;Money\", \"gate\": \"\"\x7d, " ++
      "\x7b\"id\": \"door\", \"kind\": \"Start\", \"connections\": [\"safe\", \"safe\"]\x7d]\x7d"
    let disk : Disk := { entries := [(["heist.json"], .file untidy)] }
    let contract : Contract :=
      { name := "heist"
        nodes :=
          [.ofRecord { id := "door", kind := .start, connections := ["safe", "safe"] },
            .ofRecord { id := "safe", effect2 := some "None;+;5;Money" }]
        ascending := by decide
        wellFormed := by decide
        closed := by decide }
    disk.Accepts "heist.json" ∧ (load "heist.json").runOn disk = (.ok contract, disk) ∧
    ∃ first second tidy, (contract.save "heist.json").runOn disk = (.ok (), first) ∧
      (load "heist.json").runOn first = (.ok contract, first) ∧
      first.readText "heist.json" = .ok tidy ∧
      (contract.save "heist.json").runOn first = (.ok (), second) ∧
      second.readText "heist.json" = .ok tidy := by
  intro untidy disk contract
  have hcan : disk.CanReplace "heist.json" ["heist.json"] ["heist.json.tmp"] :=
    .of_parent_eq_empty (by decide +kernel) rfl rfl nofun
  have hload : (load "heist.json").runOn disk = (.ok contract, disk) := by
    let file : ContractFile :=
      { nodes :=
          [{ id := "safe", effect1 := some " ", effect2 := some " None;+;5;Money", gate := some "" },
            { id := "door", kind := .start, connections := ["safe", "safe"] }] }
    have hfile : (ContractFile.ofText untidy : Except (Json.Fault Empty) ContractFile) = .ok file := by
      decide +kernel
    have hnodes : collect file.nodes [] = .ok contract.nodes := by decide +kernel
    have hname : (if file.name = "" then ((Path.name? "heist.json").map Path.stem).getD ""
        else file.name) = contract.name := by decide +kernel
    exact runOn_load_eq_ok_iff.2 ⟨rfl, untidy, rfl, ofStored_of_ofText hfile hname hnodes⟩
  obtain ⟨first, loaded, tidy, hsave, hback, rfl, -, hread, hagain, hsecond⟩ :=
    files_lossless.2.2 disk "heist.json" contract hload disk "heist.json" hcan.accepts
  obtain ⟨second, hsave', hread', -⟩ := hsecond first "heist.json" hagain
  exact ⟨hcan.accepts, hload, first, second, tidy, hsave, hback, hread, hsave', hread'⟩

end Contract

end PerkGraph
