import PerkGraph.CommandLine.Invocation
import PerkGraph.Preview
import PerkGraph.RuleCheck
import PerkGraph.Shown.Report
import PerkGraph.Store
import PerkGraph.Validation

/-! # Running commands

Carries out an invocation on files. A change to the session is saved only if it is accepted; whatever else
happens, no file changes. The exit code is 0 for success, 1 for input that is invalid or cannot be read, and 2
for a change that is refused.
-/

namespace PerkGraph

/-- What a run leaves on the terminal, and its exit code. -/
structure Outcome where
  exitCode : Nat
  stdout : String := ""
  /-- The line on the error stream, without its end. -/
  stderr : String := ""
deriving DecidableEq

namespace Outcome

/-- The exit code for success. -/
def ok : Nat := 0

/-- The exit code for input that is invalid or cannot be read. -/
def invalid : Nat := 1

/-- The exit code for a change that is refused. -/
def rejected : Nat := 2

/-- The outcome of a run that a store error ended. -/
def ofError (error : StoreError) : Outcome where
  exitCode := invalid
  stderr := error.message

/-- A report in one of its two forms. -/
def report (format : OutputFormat) (text : String) (json : Json) : String :=
  match format with
  | .text => text
  | .json => json.printLine

def ofCheck {α ε : Type} (showRule : α → Json) (showError : ε → Json) (check : RuleCheck α ε)
    (format : OutputFormat) : Outcome where
  exitCode := if check.isValid then ok else invalid
  stdout := report format (Text.lines [check.line]) (check.toJson showRule showError)

def ofValidation (validation : Validation) (format : OutputFormat) : Outcome where
  exitCode := if validation.isOk then ok else invalid
  stdout := report format validation.text validation.toJson

/-- The outcome of an accepted change: what was changed, and what dropped out. -/
def accepted (target : String) (demoted : IdSet) : Outcome where
  exitCode := ok
  stdout :=
    Text.lines <|
      ("ok: " ++ target) ::
        if demoted = .empty then [] else ["demoted: " ++ Text.join "," demoted.toList]

/-- The outcome of a refused change. -/
def refused (error : TransitionError) : Outcome where
  exitCode := rejected
  stderr := "rejected: " ++ error.message

end Outcome

/-- What a change to the session is about. -/
def SessionStep.target : SessionStep → String
  | .select id => id
  | .deselect id => id
  | .prune => ""
  | .setRunner assignment => "slot " ++ Text.showNat assignment.slot
  | .insert id => id

section Programs

variable {m : Type → Type} [Monad m] [Files m]

/-- Changes the stored session by one step. A refused step saves nothing. -/
def changeSession (contractPath sessionPath : String) (step : SessionStep) : StoreT m Outcome := do
  let contract ← (Contract.load contractPath).within "load contract for transition"
  let session ← (Session.load sessionPath).within "load session for transition"
  match session.step contract step with
  | .error (.transition error) => return .refused error
  | .error (.roster error) =>
    StoreT.ofStored (.error { contexts := ["update roster"], cause := .roster error })
  | .ok (changed, demoted) => do
    (changed.save sessionPath).within "persist session"
    return .accepted step.target demoted

def Invocation.perform (invocation : Invocation) (config : Config) : StoreT m Outcome :=
  match invocation.command with
  | .validate path => do
    let contract ← (Contract.load path).within "load contract for validation"
    return .ofValidation contract.validate config.format
  | .preview path => do
    let contract ← (Contract.load path).within "load contract for preview"
    let session ← (Session.load invocation.session).within "load session for preview"
    let preview := contract.preview session config
    return { exitCode := Outcome.ok, stdout := Outcome.report config.format preview.text preview.toJson }
  | .select path node => changeSession path invocation.session (.select node)
  | .deselect path node => changeSession path invocation.session (.deselect node)
  | .roster path assignment => changeSession path invocation.session (.setRunner assignment)
  | .parseEffect raw =>
    return .ofCheck Effect.toJson EffectError.toJson (.ofEffect raw) config.format
  | .parseGate raw =>
    return .ofCheck GateRule.toJson GateError.toJson (.ofGate raw) config.format

/-- The configuration of a run: the stored one, but for a format given on the command line. -/
def Invocation.configuration (invocation : Invocation) : StoreT m Config := do
  let config ← (Config.load invocation.config).within "load config"
  return { config with format := invocation.format.getD config.format }

def Invocation.run (invocation : Invocation) : m Outcome := do
  let result ← ExceptT.run do
    let config ← invocation.configuration
    invocation.perform config
  match result with
  | .ok outcome => return outcome
  | .error error => return .ofError error

end Programs

end PerkGraph
