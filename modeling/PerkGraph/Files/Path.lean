import PerkGraph.Text.Fields

/-! # Paths

Paths as texts: the name at the end, the folders in front of it, and the path of a sibling. Repeated slashes,
and dots that stand for the folder itself, do not count as parts of a path.
-/

namespace PerkGraph.Path

/-- The parts of a path between slashes, empty ones included. -/
def segments (path : String) : List String :=
  Text.split '/' path

/-- The segment leads nowhere. -/
def isIdle (segment : String) : Bool :=
  segment == "" || segment == "."

/-- The name at the end of a path, unless the path ends in the folder above. -/
def name? (path : String) : Option String :=
  ((segments path).filter fun segment => !isIdle segment).getLast?.filter fun name => name ≠ ".."

/-- The characters of a path in reverse, without slashes and idle dots at the end of the path. -/
def dropIdleEnd : List Char → List Char
  | '/' :: rest => dropIdleEnd rest
  | '.' :: '/' :: rest => dropIdleEnd rest
  | cs => cs

/-- The path without its last part; an empty text for a path of one part. -/
def parent? (path : String) : Option String :=
  match dropIdleEnd path.toList.reverse with
  | [] => none
  | cs =>
    match dropIdleEnd (cs.dropWhile fun c => c != '/') with
    | [] => some (if path.toList.head? = some '/' then "/" else "")
    | rest => some (String.ofList rest.reverse)

/-- The paths that segments lead to, given from the last one to the first: one for each segment that leads
anywhere, the longest first. -/
def frontsOfReversed : List String → List String
  | [] => []
  | last :: front =>
    if isIdle last then frontsOfReversed front
    else Text.join "/" (front.reverse ++ [last]) :: frontsOfReversed front

/-- A path and those of the folders that it leads through, the longest first. -/
def fronts (path : String) : List String :=
  frontsOfReversed (segments path).reverse

/-- A name in a folder. -/
def join (folder name : String) : String :=
  if folder = "" then name
  else if folder.toList.getLast? = some '/' then folder ++ name
  else folder ++ "/" ++ name

/-- The path of a name in the same folder. -/
def sibling (path name : String) : String :=
  match name? path with
  | some _ => join ((parent? path).getD "") name
  | none => join path name

/-- A name without its extension. A name that begins with its only dot has none. -/
def stem (name : String) : String :=
  let front := (name.toList.reverse.dropWhile fun c => c != '.').drop 1
  if front = [] then name else String.ofList front.reverse

end PerkGraph.Path
