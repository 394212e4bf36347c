import PerkGraph.Proofs.FileReplacement
import PerkGraph.Proofs.StoredForms

/-!
# Saved sessions

A session is stored as plain lists of assignments and ids and built from them again, each assignment put into
its slot and each id kept where it stands first. What is saved is loaded again as the same session, wherever it
is saved; and a text with defaults, repeated ids or assignments out of order settles after one save: saving
what was loaded writes the same text from then on (`Session.saves_lossless`).
-/

namespace PerkGraph

namespace Session

variable {disk : Disk} {path : String} {session : Session}

theorem load_of_readText (h : disk.readText path = .ok session.toText) :
    (load path).runOn disk = (.ok session, disk) := by
  rw [runOn_load, Disk.loaded_of_readText h, ofStored, ofText_toText]
  rfl

/-- A session can be saved where a file can be written, is loaded from there, and can be saved again. -/
theorem exists_save (h : disk.Accepts path) (session : Session) :
    ∃ after, (session.save path).runOn disk = (.ok (), after) ∧
      after.readText path = .ok session.toText ∧ after.Accepts path ∧
      (load path).runOn after = (.ok session, after) := by
  obtain ⟨after, hsave, hread, haccepts⟩ := h.exists_replaceFile session.toText
  exact ⟨after, hsave, hread, haccepts, load_of_readText hread⟩

/-- **Sessions survive saving.** Where a file can be written, every session can be saved, is loaded as the same
session, and the file can be written again. Whatever session is loaded from whatever file, it is saved, loaded
as an equal session and saved a second time, and both files have the same text. -/
theorem saves_lossless (h : disk.Accepts path) :
    (∀ session : Session, ∃ after, (session.save path).runOn disk = (.ok (), after) ∧
      (load path).runOn after = (.ok session, after) ∧ after.Accepts path) ∧
    ∀ (source : Disk) (file : String) (session : Session),
      (load file).runOn source = (.ok session, source) →
      ∃ first loaded text, (session.save path).runOn disk = (.ok (), first) ∧
        (load path).runOn first = (.ok loaded, first) ∧ loaded = session ∧
        first.readText path = .ok text ∧ first.Accepts path ∧
        ∀ (later : Disk) (again : String), later.Accepts again →
          ∃ second, (loaded.save again).runOn later = (.ok (), second) ∧
            second.readText again = .ok text ∧ (load again).runOn second = (.ok session, second) := by
  constructor
  · intro session
    obtain ⟨after, hsave, -, haccepts, hload⟩ := exists_save h session
    exact ⟨after, hsave, hload, haccepts⟩
  · intro source file session _
    obtain ⟨first, hsave, hread, haccepts, hload⟩ := exists_save h session
    refine ⟨first, session, session.toText, hsave, hload, rfl, hread, haccepts, ?_⟩
    intro later again hagain
    obtain ⟨second, hsecond, hsecondRead, -, hsecondLoad⟩ := exists_save hagain session
    exact ⟨second, hsecond, hsecondRead, hsecondLoad⟩

/-- A text with defaults and a repeated id is overwritten once, and then stays as it is. -/
theorem saves_lossless_untidy :
    let untidy := "\x7b\"selection\": [\"b\", \"\", \"b\"], " ++
      "\"roster\": [\x7b\"slot\": 2, \"type\": \"Ninja\", \"ninja\": 4294967295\x7d]\x7d"
    let disk : Disk := { entries := [(["session.json"], .file untidy)] }
    let session : Session :=
      { roster := { runners := #v[.nobody, .nobody, { type := .ninja, ninja := 4294967295 }] }
        selection := (Selection.empty.insert "b").insert "" }
    disk.Accepts "session.json" ∧ (load "session.json").runOn disk = (.ok session, disk) ∧
    ∃ first second tidy, (session.save "session.json").runOn disk = (.ok (), first) ∧
      (load "session.json").runOn first = (.ok session, first) ∧
      first.readText "session.json" = .ok tidy ∧
      (session.save "session.json").runOn first = (.ok (), second) ∧
      second.readText "session.json" = .ok tidy := by
  intro untidy disk session
  have hcan : disk.CanReplace "session.json" ["session.json"] ["session.json.tmp"] :=
    .of_parent_eq_empty (by decide +kernel) rfl rfl nofun
  have haccepts : disk.Accepts "session.json" := hcan.accepts
  have hload : (load "session.json").runOn disk = (.ok session, disk) := by decide +kernel
  obtain ⟨first, loaded, tidy, hsave, hback, rfl, hread, hagain, hsecond⟩ :=
    (saves_lossless haccepts).2 disk "session.json" session hload
  obtain ⟨second, hsave', hread', -⟩ := hsecond first "session.json" hagain
  exact ⟨haccepts, hload, first, second, tidy, hsave, hback, hread, hsave', hread'⟩

end Session

end PerkGraph
