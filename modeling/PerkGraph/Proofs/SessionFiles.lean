import PerkGraph.CommandLine.Run
import PerkGraph.Proofs.ContractFiles
import PerkGraph.Proofs.SavedSessions
import PerkGraph.Proofs.SessionRun

/-!
# Sessions in files

Command lines that change a session in a file do what its steps do: after any of them the file holds the session
that the steps lead to (`SessionPaths.lines_refine_steps`). Between two command lines the session is written
and read again, which loses nothing (`Session.load_of_readText`), and the files that a command reads besides are
not the ones that it writes. One command line is one step (`Serves.exists_outcome`); a run follows by induction
(`Serves.afterLines`).
-/

namespace PerkGraph

/-! ## Command lines -/

/-- The files that the command lines of a run have in common. -/
structure SessionPaths where
  config : String
  session : String
  contract : String

/-- The contract whose session a command changes, and the step. -/
def Command.step? : Command → Option (String × SessionStep)
  | .select contract node => some (contract, .select node)
  | .deselect contract node => some (contract, .deselect node)
  | .roster contract assignment => some (contract, .setRunner assignment)
  | .validate _ | .preview _ | .parseEffect _ | .parseGate _ => none

/-- A command line that asks for a step of the session. -/
structure StepLine (paths : SessionPaths) where
  arguments : List String
  invocation : Invocation
  step : SessionStep
  parsed : Invocation.ofArguments arguments = .ok invocation
  config_eq : invocation.config = paths.config
  session_eq : invocation.session = paths.session
  asks : invocation.command.step? = some (paths.contract, step)

/-- Carries out a command line, unless it does not fit the grammar. -/
def carryOut {m : Type → Type} [Monad m] [Files m] (arguments : List String) :
    m (Except Arguments.Stop Outcome) :=
  match Invocation.ofArguments arguments with
  | .error stop => return .error stop
  | .ok invocation => return .ok (← invocation.run)

/-- The disk after command lines that are carried out one after another. -/
def Disk.afterLines (disk : Disk) (lines : List (List String)) : Disk :=
  lines.foldl (fun disk arguments => (disk.perform (carryOut arguments)).2) disk

/-- The exit code of a command that asks for a step, by what comes of the step. -/
def stepExitCode : Except StepError (Session × IdSet) → Nat
  | .ok _ => Outcome.ok
  | .error (.transition _) => Outcome.rejected
  | .error (.roster _) => Outcome.invalid

section StepExitCode

variable {result : Except StepError (Session × IdSet)}

theorem stepExitCode_eq_zero_iff : stepExitCode result = 0 ↔ ∃ changed, result = .ok changed := by
  rcases result with (_ | _) | _ <;> simp [stepExitCode, Outcome.ok, Outcome.invalid, Outcome.rejected]

theorem stepExitCode_eq_two_iff :
    stepExitCode result = 2 ↔ ∃ error, result = .error (.transition error) := by
  rcases result with (_ | _) | _ <;> simp [stepExitCode, Outcome.ok, Outcome.invalid, Outcome.rejected]

theorem stepExitCode_eq_one_iff :
    stepExitCode result = 1 ↔ ∃ error, result = .error (.roster error) := by
  rcases result with (_ | _) | _ <;> simp [stepExitCode, Outcome.ok, Outcome.invalid, Outcome.rejected]

end StepExitCode

/-- A runner is refused exactly where there is no slot. -/
theorem Session.step_eq_roster_error_iff {contract : Contract} {state : Session} {step : SessionStep} :
    (∃ error, state.step contract step = .error (.roster error)) ↔
      ∃ assignment, step = .setRunner assignment ∧ rosterSlots ≤ assignment.slot := by
  cases step with
  | select id =>
    simp only [Session.step]
    cases contract.select state.roster state.selection id <;> simp
  | deselect id =>
    simp only [Session.step]
    cases contract.deselect state.roster state.selection id <;> simp
  | prune => simp [Session.step]
  | setRunner assignment =>
    by_cases h : assignment.slot < rosterSlots
    · simp [Session.step, Roster.set, h]
    · simp [Session.step, Roster.set, h, Nat.le_of_not_lt h]
  | insert id => simp [Session.step]

theorem perform_run (invocation : Invocation) (disk : Disk) :
    disk.perform invocation.run =
      match (invocation.configuration >>= invocation.perform).runOn disk with
      | (.ok outcome, after) => (outcome, after)
      | (.error error, after) => (.ofError error, after) := by
  unfold Invocation.run StoreT.runOn
  rw [Disk.perform_bind]
  rcases disk.perform (invocation.configuration >>= invocation.perform).run with ⟨_ | _, after⟩ <;> rfl

theorem Invocation.perform_of_step? {m : Type → Type} [Monad m] [Files m] {invocation : Invocation}
    {contract : String} {step : SessionStep} (h : invocation.command.step? = some (contract, step))
    (config : Config) :
    (invocation.perform config : StoreT m Outcome) = changeSession contract invocation.session step := by
  obtain ⟨_, _, _, command⟩ := invocation
  cases command <;> cases h <;> rfl

namespace SessionPaths

variable {paths : SessionPaths} {contract : Contract} {state : Session} {disk : Disk}
  {saved : String → Disk}

/-- A disk that has what it takes to carry out a step: the contract and the session, a configuration or none,
and a way to save the session. -/
structure Serves (paths : SessionPaths) (contract : Contract) (disk : Disk) (state : Session)
    (saved : String → Disk) : Prop where
  contract_loads : (Contract.load paths.contract).runOn disk = (.ok contract, disk)
  session_loads : (Session.load paths.session).runOn disk = (.ok state, disk)
  config_loads : ∃ config, (Config.load paths.config).runOn disk = (.ok config, disk)
  saves : ∀ text, (replaceFile paths.session text).runOn disk = (.ok (), saved text)

/-- The disk after a step. -/
def afterStep (disk : Disk) (saved : String → Disk) : Except StepError (Session × IdSet) → Disk
  | .ok (changed, _) => saved changed.toText
  | .error _ => disk

namespace Serves

theorem changeSession (h : paths.Serves contract disk state saved) (step : SessionStep) :
    (∃ outcome, (changeSession paths.contract paths.session step).runOn disk =
        (.ok outcome, afterStep disk saved (state.step contract step)) ∧
        outcome.exitCode = stepExitCode (state.step contract step)) ∨
      ∃ error, (PerkGraph.changeSession paths.contract paths.session step).runOn disk =
        (.error error, afterStep disk saved (state.step contract step)) ∧
        stepExitCode (state.step contract step) = Outcome.invalid := by
  have hsave (changed : Session) : (changed.save paths.session).runOn disk =
      (.ok (), saved changed.toText) := h.saves changed.toText
  unfold PerkGraph.changeSession
  rw [StoreT.runOn_bind_of_ok (StoreT.runOn_within_of_ok _ h.contract_loads),
    StoreT.runOn_bind_of_ok (StoreT.runOn_within_of_ok _ h.session_loads)]
  cases state.step contract step with
  | ok result =>
    refine .inl ⟨.accepted step.target result.2, ?_, rfl⟩
    exact StoreT.runOn_bind_of_ok (StoreT.runOn_within_of_ok _ (hsave result.1))
  | error error =>
    cases error with
    | transition error => exact .inl ⟨.refused error, rfl, rfl⟩
    | roster error => exact .inr ⟨_, rfl, rfl⟩

/-- **One command line is one step**: its exit code tells what came of the step, and the disk is the one
before it or has the changed session. -/
theorem exists_outcome (h : paths.Serves contract disk state saved) (line : StepLine paths) :
    ∃ outcome, disk.perform (carryOut line.arguments) =
        (.ok outcome, afterStep disk saved (state.step contract line.step)) ∧
      outcome.exitCode = stepExitCode (state.step contract line.step) := by
  obtain ⟨config, hconfig⟩ := h.config_loads
  obtain ⟨configuration, hconfiguration⟩ : ∃ configuration,
      line.invocation.configuration.runOn disk = (.ok configuration, disk) := by
    have hload : (Config.load line.invocation.config).runOn disk = (.ok config, disk) :=
      line.config_eq ▸ hconfig
    exact ⟨_, StoreT.runOn_bind_of_ok (StoreT.runOn_within_of_ok _ hload)⟩
  have hcarry : disk.perform (carryOut line.arguments) =
      (.ok (disk.perform line.invocation.run).1, (disk.perform line.invocation.run).2) := by
    rw [carryOut, line.parsed]
    rfl
  rw [hcarry, perform_run, StoreT.runOn_bind_of_ok hconfiguration,
    Invocation.perform_of_step? line.asks, line.session_eq]
  rcases h.changeSession line.step with ⟨outcome, hrun, hcode⟩ | ⟨error, hrun, hcode⟩
  · rw [hrun]
    exact ⟨outcome, rfl, hcode⟩
  · rw [hrun]
    exact ⟨.ofError error, rfl, hcode.symm⟩

theorem afterStep_serves (h : paths.Serves contract disk state saved)
    (hsaved : ∀ state, paths.Serves contract (saved state.toText) state saved) (step : SessionStep) :
    paths.Serves contract (afterStep disk saved (state.step contract step)) (state.next contract step)
      saved := by
  cases hstep : state.step contract step with
  | ok result =>
    rw [Session.next_of_ok hstep]
    exact hsaved result.1
  | error error =>
    rw [Session.next_of_error hstep]
    exact h

theorem afterLines (h : paths.Serves contract disk state saved)
    (hsaved : ∀ state, paths.Serves contract (saved state.toText) state saved)
    (lines : List (StepLine paths)) :
    paths.Serves contract (disk.afterLines (lines.map StepLine.arguments))
      (state.run contract (lines.map StepLine.step)) saved := by
  induction lines generalizing disk state with
  | nil => exact h
  | cons line rest ih =>
    obtain ⟨outcome, hperform, -⟩ := h.exists_outcome line
    have hnext := h.afterStep_serves hsaved line.step
    have hdisk : disk.afterLines ((line :: rest).map StepLine.arguments) =
        Disk.afterLines (afterStep disk saved (state.step contract line.step))
          (rest.map StepLine.arguments) := by
      rw [List.map_cons, Disk.afterLines, List.foldl_cons, hperform]
      rfl
    rw [hdisk]
    exact ih hnext

end Serves

/-- The files of a run before its first command line: the contract and the session can be loaded, there is a
valid configuration or none, and the session can be saved. Neither the session nor the file beside it is the
contract or the configuration, and there is a valid configuration or none also with the folders that the
session is saved in. -/
structure IsReady (paths : SessionPaths) (disk : Disk) (contract : Contract) (initial : Session) :
    Prop where
  contract_loads : (Contract.load paths.contract).runOn disk = (.ok contract, disk)
  session_loads : (Session.load paths.session).runOn disk = (.ok initial, disk)
  config_loads : ∃ config, (Config.load paths.config).runOn disk = (.ok config, disk)
  session_saves : ∃ next, (initial.save paths.session).runOn disk = (.ok (), next) ∧
    (∃ config, (Config.load paths.config).runOn next = (.ok config, next)) ∧
    ∀ place, next.resolve paths.contract = .ok place ∨ next.resolve paths.config = .ok place →
      next.resolve paths.session ≠ .ok place ∧ next.resolve (Path.beside paths.session) ≠ .ok place

theorem IsReady.exists_serves {initial : Session} (h : paths.IsReady disk contract initial) :
    ∃ saved, paths.Serves contract disk initial saved ∧
      ∀ state, paths.Serves contract (saved state.toText) state saved := by
  -- saving another session on the first disk gives `next` but for the text of the session
  obtain ⟨next, hsave, ⟨config, hconfig⟩, hapart⟩ := h.session_saves
  obtain ⟨prepared, place, beside, hadds, hcan, rfl, hall⟩ := Disk.exists_canReplace hsave
  have hsession := hcan.resolve_replaced initial.toText
  have hbeside := hcan.resolve_beside initial.toText
  have hne : ∀ found, Disk.resolve (prepared.replaced place beside initial.toText) paths.contract =
      .ok found ∨ Disk.resolve (prepared.replaced place beside initial.toText) paths.config =
      .ok found → found ≠ place ∧ found ≠ beside := by
    intro found hfound
    obtain ⟨hplace, hfile⟩ := hapart found hfound
    constructor
    · rintro rfl
      exact hplace hsession
    · rintro rfl
      exact hfile hbeside
  obtain ⟨-, text, hread, hstored⟩ := Contract.runOn_load_eq_ok_iff.1 h.contract_loads
  refine ⟨prepared.replaced place beside,
    ⟨h.contract_loads, h.session_loads, h.config_loads, hall⟩, fun state => ⟨?_, ?_, ⟨config, ?_⟩, ?_⟩⟩
  · have hagree := hcan.agree initial.toText state.toText fun found hfound =>
      (hne found (.inl hfound)).1
    have hkept := hcan.readText_of_ne hadds hread fun found hfound => hne found (.inl hfound)
    exact Contract.runOn_load_eq_ok_iff.2 ⟨rfl, text, hagree.readText hkept, hstored⟩
  · exact Session.load_of_readText (hcan.readText_replaced state.toText)
  · have hagree := hcan.agree initial.toText state.toText fun found hfound =>
      (hne found (.inr hfound)).1
    rw [Config.runOn_load] at hconfig ⊢
    rw [hagree.loaded (congrArg Prod.fst hconfig)]
  · intro other
    rw [(hcan.replaced state.toText).run other, hcan.replaced_replaced]

/-! ## The main statement -/

/-- **Command lines do what the steps of a session do.** Whatever command lines have been carried out, the
stored session is the one that their steps lead to. The next one exits with 0 if its step is accepted, with 2
if the selection cannot change that way, with 1 if there is no such slot. Unless it exits with 0, no file
changes; if it does, no other file than that of the session changes, and the file beside it is gone. -/
theorem lines_refine_steps {initial : Session} (h : paths.IsReady disk contract initial)
    (earlier : List (StepLine paths)) (line : StepLine paths) :
    let before := disk.afterLines (earlier.map StepLine.arguments)
    let after := disk.afterLines ((earlier ++ [line]).map StepLine.arguments)
    let state := initial.run contract (earlier.map StepLine.step)
    (Session.load paths.session).runOn before = (.ok state, before) ∧
    (Session.load paths.session).runOn after = (.ok (state.next contract line.step), after) ∧
    ∃ outcome, before.perform (carryOut line.arguments) = (.ok outcome, after) ∧
      (outcome.exitCode = 0 ↔ ∃ result, state.step contract line.step = .ok result) ∧
      (outcome.exitCode = 2 ↔ ∃ error, state.step contract line.step = .error (.transition error)) ∧
      (outcome.exitCode = 1 ↔
        ∃ assignment, line.step = .setRunner assignment ∧ rosterSlots ≤ assignment.slot) ∧
      (outcome.exitCode ≠ 0 → after = before) ∧
      (outcome.exitCode = 0 →
        after.isThere (Path.beside paths.session) = false ∧
        ∃ place beside, after.resolve paths.session = .ok place ∧
          after.resolve (Path.beside paths.session) = .ok beside ∧
          ∀ other content, other ≠ place → other ≠ beside →
            (after.entry? other = some (.file content) ↔ before.entry? other = some (.file content))) := by
  intro before after state
  obtain ⟨saved, hserves, hsaved⟩ := h.exists_serves
  have hbefore : paths.Serves contract before state saved := hserves.afterLines hsaved earlier
  obtain ⟨outcome, hperform, hcode⟩ := hbefore.exists_outcome line
  have hafter : after = afterStep before saved (state.step contract line.step) := by
    have happend : after = (before.perform (carryOut line.arguments)).2 := by
      simp only [after, before, Disk.afterLines, List.map_append, List.foldl_append, List.map_cons,
        List.map_nil, List.foldl_cons, List.foldl_nil]
    rw [happend, hperform]
  have hnext : paths.Serves contract after (state.next contract line.step) saved :=
    hafter ▸ hbefore.afterStep_serves hsaved line.step
  refine ⟨hbefore.session_loads, hnext.session_loads, outcome, hafter ▸ hperform, ?_, ?_, ?_, ?_, ?_⟩
  · rw [hcode, stepExitCode_eq_zero_iff]
  · rw [hcode, stepExitCode_eq_two_iff]
  · rw [hcode, stepExitCode_eq_one_iff, Session.step_eq_roster_error_iff]
  · intro hne
    rw [hcode] at hne
    cases hstep : state.step contract line.step with
    | ok result => exact absurd (hstep ▸ rfl) hne
    | error error => rw [hafter, hstep, afterStep]
  · intro hzero
    obtain ⟨result, hstep⟩ := stepExitCode_eq_zero_iff.1 (hcode ▸ hzero)
    have hsave : (replaceFile paths.session result.1.toText).runOn before = (.ok (), after) := by
      rw [hafter, hstep]
      exact hbefore.saves result.1.toText
    exact (replaceFile_spec hsave).2

/-- The paths of configuration and session where none are given. -/
def standard (contract : String) : SessionPaths where
  config := "contract.toml"
  session := "session.json"
  contract

/-- A folder with nothing but a contract is ready for a run. -/
theorem isReady_standard {contract : Contract} (hname : contract.name ≠ "") :
    (standard "heist.json").IsReady { entries := [(["heist.json"], .file contract.toFile.toText)] }
      contract {} := by
  have hcan : Disk.CanReplace { entries := [(["heist.json"], .file contract.toFile.toText)] }
      "session.json" ["session.json"] ["session.json.tmp"] :=
    .of_parent_eq_empty (by decide +kernel) rfl rfl nofun
  refine
    { contract_loads :=
        Contract.runOn_load_eq_ok_iff.2 ⟨rfl, _, rfl, Contract.ofStored_toText _ hname⟩
      session_loads := Session.runOn_load _ _
      config_loads := ⟨{}, Config.runOn_load _ _⟩
      session_saves := ⟨_, hcan.run _, ⟨{}, Config.runOn_load _ _⟩, fun place hplace => ?_⟩ }
  rw [standard, hcan.resolve_replaced, hcan.resolve_beside]
  rcases hplace with h | h
  · obtain rfl : ["heist.json"] = place := Except.ok.inj h
    exact ⟨by decide, by decide⟩
  · obtain rfl : ["contract.toml"] = place := Except.ok.inj h
    exact ⟨by decide, by decide⟩

/-- In such a folder, selecting a start node is accepted and leaves a session. -/
theorem lines_refine_steps_standard :
    let contract : Contract :=
      { name := "heist"
        nodes :=
          [{ id := "start", kind := .start, color := .grey, effect1 := none, effect2 := none
             gate := none, connections := [] }]
        ascending := by decide
        wellFormed := by decide
        closed := by decide }
    let disk : Disk := { entries := [(["heist.json"], .file contract.toFile.toText)] }
    let after := disk.afterLines [["select", "heist.json", "start"]]
    (standard "heist.json").IsReady disk contract {} ∧
    (Session.load "session.json").runOn after =
      (.ok { selection := Selection.empty.insert "start" }, after) ∧
    ∃ outcome, disk.perform (carryOut ["select", "heist.json", "start"]) = (.ok outcome, after) ∧
      outcome.exitCode = 0 := by
  intro contract disk after
  have hready : (standard "heist.json").IsReady disk contract {} := isReady_standard (by decide)
  let line : StepLine (standard "heist.json") :=
    { arguments := ["select", "heist.json", "start"]
      invocation := { command := .select "heist.json" "start" }
      step := .select "start"
      parsed := by decide +kernel
      config_eq := rfl
      session_eq := rfl
      asks := rfl }
  have hstep : ({} : Session).step contract (.select "start") =
      .ok ({ selection := Selection.empty.insert "start" }, .empty) := by decide +kernel
  obtain ⟨-, hload, outcome, hperform, hcode, -⟩ := lines_refine_steps hready [] line
  refine ⟨hready, ?_, outcome, hperform, hcode.2 ⟨_, hstep⟩⟩
  rw [← Session.next_of_ok hstep]
  exact hload

end SessionPaths

end PerkGraph
