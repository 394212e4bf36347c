import PerkGraph.Files.Folders
import PerkGraph.Stored.Config
import PerkGraph.Stored.Contract
import PerkGraph.Stored.Session

/-! # Stores

Loading and saving contracts, sessions and configurations as files. A file is replaced as a whole: the text
goes to a file beside it, which then takes its place. An error tells what was being done, from the outside in,
and its cause.
-/

namespace PerkGraph

/-! ## Errors -/

/-- What makes a store fail. -/
inductive StoreCause where
  | json
  | toml
  | os (error : OsError)
  | contract (error : ContractError)
  | roster (error : RosterError)
  | config (error : ConfigError)
  | noParent (path : String)
deriving DecidableEq

/-- What is wrong, in words. A text that is not of its format is reported by the name of the format. -/
def StoreCause.message : StoreCause → String
  | json => "<json>"
  | toml => "<toml>"
  | os error => error.message
  | contract error => error.message
  | roster error => error.message
  | config error => error.message
  | noParent path => "path missing parent " ++ path

/-- What was being done, from the outside in, and what made it fail. -/
structure StoreError where
  contexts : List String := []
  cause : StoreCause
deriving DecidableEq

namespace StoreError

def message (error : StoreError) : String :=
  Text.join ": " (error.contexts ++ [error.cause.message])

/-- The error as part of something larger. -/
def within (context : String) (error : StoreError) : StoreError :=
  { error with contexts := context :: error.contexts }

end StoreError

/-- A result, or the error of a store. -/
abbrev Stored (α : Type) := Except StoreError α

namespace Stored

/-- A result whose error is the cause of a failure in doing something. -/
def ofCause {ε α : Type} (context : String) (cause : ε → StoreCause) : Except ε α → Stored α
  | .ok value => .ok value
  | .error error => .error { contexts := [context], cause := cause error }

end Stored

/-- The cause that a fault in a contract text is. -/
def contractFault (_ : Json.Fault Empty) : StoreCause := .json

/-- The cause that a fault in a session text is. -/
def sessionFault : Json.Fault RosterError → StoreCause
  | .malformed => .json
  | .refused error => .roster error

/-! ## From texts -/

/-- The contract that a file at `path` holds. One without a name takes the name of its file. -/
def Contract.ofStored (path text : String) : Stored Contract := do
  let file ← Stored.ofCause ("parse contract " ++ path) contractFault (ContractFile.ofText text)
  let name := if file.name = "" then ((Path.name? path).map Path.stem).getD "" else file.name
  Stored.ofCause ("build contract " ++ path) .contract (Contract.build name file.nodes)

/-- The session that a file at `path` holds. -/
def Session.ofStored (path text : String) : Stored Session :=
  Stored.ofCause ("parse session " ++ path) sessionFault (Session.ofText text)

/-- The configuration that a file at `path` holds. -/
def Config.ofStored (path text : String) : Stored Config := do
  let config ← Stored.ofCause ("parse " ++ path) (fun _ => .toml)
    ((Config.ofText? text).elim (.error ()) .ok)
  Stored.ofCause ("validate " ++ path) .config config.validate
  return config

/-! ## From files and to files -/

section Programs

variable {m : Type → Type} [Monad m] [Files m]

/-- A program that may fail with the error of a store. -/
abbrev StoreT (m : Type → Type) (α : Type) := ExceptT StoreError m α

/-- The result of a program that has none if it fails. -/
def StoreT.ofStored {α : Type} (result : Stored α) : StoreT m α :=
  ExceptT.mk (pure result)

/-- A file operation, in the course of doing something. -/
def StoreT.attempt {α : Type} (context : String) (operation : m (Except OsError α)) : StoreT m α :=
  ExceptT.mk do
    let result ← operation
    return Stored.ofCause context .os result

/-- A program as part of something larger. -/
def StoreT.within {α : Type} (context : String) (program : StoreT m α) : StoreT m α :=
  ExceptT.mk do
    let result ← program.run
    return result.mapError (StoreError.within context)

/-- Replaces a file as a whole by way of a file beside it. -/
def replaceFile (path text : String) : StoreT m Unit := do
  let some parent := Path.parent? path
    | StoreT.ofStored (.error { cause := .noParent path })
  if parent ≠ "" then
    StoreT.attempt ("create directory " ++ parent) (Files.createFolders parent)
  let beside := Path.sibling path ((Path.name? path).getD "" ++ ".tmp")
  StoreT.attempt ("write temp file " ++ beside) (Files.writeText beside text)
  StoreT.attempt ("replace " ++ path) (Files.rename beside path)

def Contract.load (path : String) : StoreT m Contract := do
  let text ← StoreT.attempt ("read contract " ++ path) (Files.readText path)
  StoreT.ofStored (Contract.ofStored path text)

/-- Saves a contract, its nodes in ascending order of ids. -/
def Contract.save (path : String) (contract : Contract) : StoreT m Unit :=
  replaceFile path contract.toFile.toText

/-- Loads a session; there is a fresh one where there is no file. -/
def Session.load (path : String) : StoreT m Session := do
  if ← (Files.isThere path : m Bool) then
    let text ← StoreT.attempt ("read session " ++ path) (Files.readText path)
    StoreT.ofStored (Session.ofStored path text)
  else return {}

def Session.save (path : String) (session : Session) : StoreT m Unit :=
  replaceFile path session.toText

/-- Loads a configuration; where there is no file, the standard rules hold. -/
def Config.load (path : String) : StoreT m Config := do
  if ← (Files.isThere path : m Bool) then
    let text ← StoreT.attempt ("read " ++ path) (Files.readText path)
    StoreT.ofStored (Config.ofStored path text)
  else return {}

/-- Saves a configuration, unless it must not be stored. -/
def Config.save (path : String) (config : Config) : StoreT m Unit := do
  StoreT.ofStored (config.validate.mapError fun error => { cause := .config error })
  replaceFile path config.toText

end Programs

end PerkGraph
