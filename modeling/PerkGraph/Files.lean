import PerkGraph.Text.Numeral

/-! # Files

What is asked of a file system: whether something is there, its text, a new folder, a new text, another name.
The stores are written against this interface, so they run on the files of a machine as on a `Disk`.
-/

namespace PerkGraph

/-- Why the operating system refuses. -/
inductive OsError where
  | notFound
  /-- The last part of a path is `.` or `..`, which nobody can replace. -/
  | inUse
  | alreadyExists
  | notAFolder
  | isAFolder
  | nameTooLong
  | other (text : String)
deriving DecidableEq

namespace OsError

/-- The number and the words of the operating system for an error. -/
def message : OsError → String
  | notFound => "No such file or directory (os error 2)"
  | inUse => "Device or resource busy (os error 16)"
  | alreadyExists => "File exists (os error 17)"
  | notAFolder => "Not a directory (os error 20)"
  | isAFolder => "Is a directory (os error 21)"
  | nameTooLong => "File name too long (os error 36)"
  | other text => text

end OsError

/-- A monad with files. -/
class Files (m : Type → Type) where
  /-- Tells whether there is a file or a folder. -/
  isThere : (path : String) → m Bool
  isFolder : (path : String) → m Bool
  readText : (path : String) → m (Except OsError String)
  /-- Creates a folder in one that is there already. -/
  createFolder : (path : String) → m (Except OsError Unit)
  /-- Creates a file with a text, or replaces the text of one. -/
  writeText : (path text : String) → m (Except OsError Unit)
  /-- Gives a file another path, in place of a file that has it. -/
  rename : (path target : String) → m (Except OsError Unit)

end PerkGraph
