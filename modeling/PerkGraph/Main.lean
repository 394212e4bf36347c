import PerkGraph.CommandLine.Run

/-! # The program

Runs one command line on the files of the machine.
-/

namespace PerkGraph

/-- The number is that of the error. Some operations report it with a minus sign. -/
def isCode (number code : UInt32) : Bool :=
  code = number ∨ code = 0 - number

/-- The error of the operating system that an operation of the machine reports. -/
def osError : IO.Error → OsError
  | .noFileOrDirectory .. => .notFound
  | .resourceBusy .. => .inUse
  | .alreadyExists .. => .alreadyExists
  | .inappropriateType _ code _ => if isCode 21 code then .isAFolder else .notAFolder
  | error@(.invalidArgument _ code _) =>
    if isCode 36 code then .nameTooLong else .other error.toString
  | error => .other error.toString

/-- An operation on files of the machine, its error as one of the operating system. -/
def onMachine {α : Type} (operation : IO α) : IO (Except OsError α) := do
  try
    return .ok (← operation)
  catch error =>
    return .error (osError error)

/-- Whether something can be opened at a path, or exists and must not be opened. -/
def isOnMachine (path : String) : IO Bool := do
  match ← onMachine (IO.FS.Handle.mk path .read) with
  | .error .notFound | .error .notAFolder | .error .nameTooLong => return false
  | _ => return true

/-- Whether there is a folder at a path: the one thing that has no text because it is a folder. -/
def isFolderOnMachine (path : String) : IO Bool := do
  match ← onMachine (IO.FS.readFile path) with
  | .error .isAFolder => return true
  | _ => return false

instance : Files IO where
  isThere path := isOnMachine path
  isFolder path := isFolderOnMachine path
  readText path := onMachine (IO.FS.readFile path)
  createFolder path := onMachine (IO.FS.createDir path)
  writeText path text := onMachine (IO.FS.writeFile path text)
  rename path target := onMachine (IO.FS.rename path target)

/-- What is printed for a command line that does not fit the grammar, or on request. -/
def usage : String :=
  Text.lines
    ["Evaluate contract perk graphs: availability, pools and prevention",
      "",
      "Usage: contract [--config FILE] [--session FILE] [--format text|json] COMMAND",
      "",
      "Commands:",
      "  validate CONTRACT",
      "  preview CONTRACT",
      "  select CONTRACT NODE",
      "  deselect CONTRACT NODE",
      "  roster CONTRACT --slot N --type TYPE [--face N] [--muscle N] [--hacker N] [--ninja N]",
      "  parse-effect RAW",
      "  parse-gate RAW"]

/-- The line that names the program and its version. -/
def versionLine : String := "contract 0.1.0\n"

end PerkGraph

open PerkGraph in
/-- Runs a command line and ends with its exit code. -/
def main (arguments : List String) : IO UInt32 := do
  match Invocation.ofArguments arguments with
  | .error .usage =>
    IO.eprint usage
    return 2
  | .error .help =>
    IO.print usage
    return 0
  | .error .version =>
    IO.print versionLine
    return 0
  | .ok invocation =>
    let outcome : Outcome ← invocation.run
    IO.print outcome.stdout
    if outcome.stderr ≠ "" then IO.eprintln outcome.stderr
    return outcome.exitCode.toUInt32
