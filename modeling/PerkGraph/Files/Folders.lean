import PerkGraph.Files
import PerkGraph.Files.Path

/-! # Folders

Creating the folders of a path. The whole path is tried first, for most often only the last folder is missing;
if the one in front of it is missing too, that is created before.
-/

namespace PerkGraph.Files

variable {m : Type → Type} [Monad m] [Files m]

/-- Creates a folder in one that is there already, unless it is a folder itself. -/
def ensureFolder (path : String) : m (Except OsError Unit) := do
  match ← createFolder path with
  | .ok () => return .ok ()
  | .error error => return if ← isFolder path then .ok () else .error error

/-- Creates the first of some folders. Each of the others is the one that the folder before it is in, and is
created as far as it is missing. -/
def createAlong : (paths : List String) → m (Except OsError Unit)
  | [] => return .ok ()
  | path :: fronts => do
    match ← ensureFolder path with
    | .error .notFound =>
      match ← createAlong fronts with
      | .ok () => ensureFolder path
      | .error error => return .error error
    | result => return result

/-- Creates a folder and those that its path leads through, as far as they are missing. What has been created
stays even if a later one is refused. -/
def createFolders (path : String) : m (Except OsError Unit) :=
  createAlong (Path.fronts path)

end PerkGraph.Files
