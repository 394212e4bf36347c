import PerkGraph.Files.Folders

/-! # Disks

A file system as a value: a tree of folders and files around the working folder, each at the names that lead
to it. Paths are resolved as an operating system does it: every part but the last must be a folder, and so must
what a slash follows.
-/

namespace PerkGraph

/-- What stands at a place. -/
inductive DiskEntry where
  | folder
  | file (text : String)
deriving DecidableEq

/-- The names that lead from the working folder to a place. A place that is not below the working folder has
its way up in front, or a slash if it is given from the top. -/
abbrev Place := List String

namespace Place

/-- The folder that all others are in. -/
def top : Place := ["/"]

/-- The folder that a path starts from. -/
def start (path : String) : Place :=
  if path.toList.head? = some '/' then top else []

/-- The place is the working folder or one that it is in. -/
def isAround (place : Place) : Bool :=
  place = top || place.all (· = "..")

/-- The folder that a folder is in. The top is in itself. -/
def up (place : Place) : Place :=
  if place = top then top
  else if place.isAround then place ++ [".."]
  else place.dropLast

end Place

/-- The folders and files around the working folder. -/
structure Disk where
  entries : List (Place × DiskEntry) := []
deriving DecidableEq

namespace Disk

def empty : Disk := {}

/-! ## Places -/

/-- What stands at a place. The working folder is always there, and so are those that it is in. -/
def entry? (disk : Disk) (place : Place) : Option DiskEntry :=
  if place.isAround then some .folder else disk.entries.lookup place

def erase (disk : Disk) (place : Place) : Disk where
  entries := disk.entries.filter fun entry => entry.1 ≠ place

/-- The disk with an entry at a place, whatever stood there. -/
def put (disk : Disk) (place : Place) (entry : DiskEntry) : Disk where
  entries := (disk.erase place).entries ++ [(place, entry)]

/-- Passes a place that is a folder. -/
def folder (disk : Disk) (place : Place) : Except OsError Unit :=
  match disk.entry? place with
  | some .folder => .ok ()
  | some (.file _) => .error .notAFolder
  | none => .error .notFound

/-- The longest name in bytes that there may be. -/
def nameLimit : Nat := 255

/-- The place that a segment leads to from a folder. -/
def step (disk : Disk) (place : Place) (segment : String) : Except OsError Place :=
  match disk.folder place with
  | .error error => .error error
  | .ok () =>
    if Path.isIdle segment then .ok place
    else if segment = ".." then .ok place.up
    else if nameLimit < segment.utf8ByteSize then .error .nameTooLong
    else .ok (place ++ [segment])

/-- Follows the segments of a path from a place. Whatever is followed further must be a folder. -/
def follow (disk : Disk) : List String → Place → Except OsError Place
  | [], place => .ok place
  | segment :: rest, place =>
    match disk.step place segment with
    | .error error => .error error
    | .ok next => follow disk rest next

/-- The longest path in bytes that there may be. -/
def pathLimit : Nat := 4095

/-- Passes a path that can be followed: one that says something and is not too long. -/
def checkPath (path : String) : Except OsError Unit :=
  if path = "" then .error .notFound
  else if pathLimit < path.utf8ByteSize then .error .nameTooLong
  else .ok ()

/-- The place that a path leads to. -/
def resolve (disk : Disk) (path : String) : Except OsError Place := do
  checkPath path
  disk.follow (Path.segments path) (Place.start path)

/-- The folder that some segments lead to from a folder. -/
def resolveFolder (disk : Disk) (segments : List String) (start : Place) : Except OsError Place := do
  let place ← disk.follow segments start
  disk.folder place
  return place

/-! ## Operations -/

def isThere (disk : Disk) (path : String) : Bool :=
  match disk.resolve path with
  | .ok place => (disk.entry? place).isSome
  | .error _ => false

def isFolder (disk : Disk) (path : String) : Bool :=
  match disk.resolve path with
  | .ok place => disk.entry? place = some .folder
  | .error _ => false

def readText (disk : Disk) (path : String) : Except OsError String :=
  match disk.resolve path with
  | .error error => .error error
  | .ok place =>
    match disk.entry? place with
    | some (.file text) => .ok text
    | some .folder => .error .isAFolder
    | none => .error .notFound

/-- The place that the last segment of a path leads to, and this segment. Slashes behind it do not count. -/
def resolveLast (disk : Disk) (path : String) : Except OsError (Place × String) := do
  checkPath path
  match (Path.segments path).reverse.dropWhile (· = "") with
  | [] => return (Place.top, ".")
  | last :: front =>
    let parent ← disk.resolveFolder front.reverse (Place.start path)
    let place ← disk.step parent last
    return (place, last)

def createFolder (disk : Disk) (path : String) : Except OsError Disk := do
  let (place, _) ← disk.resolveLast path
  match disk.entry? place with
  | some _ => .error .alreadyExists
  | none => .ok (disk.put place .folder)

def writeText (disk : Disk) (path text : String) : Except OsError Disk :=
  match disk.resolve path with
  | .error error => .error error
  | .ok place =>
    match disk.entry? place with
    | some .folder => .error .isAFolder
    | _ => .ok (disk.put place (.file text))

/-- The place that a file is to take with a path. There must be no folder, and the path must not ask for
one, be it by a dot or by a slash at its end. -/
def resolveTarget (disk : Disk) (path : String) : Except OsError Place := do
  let (place, last) ← disk.resolveLast path
  if last = "." ∨ last = ".." then .error .inUse
  else if path.toList.getLast? = some '/' then .error .notAFolder
  else if disk.entry? place = some .folder then .error .isAFolder
  else .ok place

def rename (disk : Disk) (path target : String) : Except OsError Disk :=
  match disk.readText path, disk.resolve path, disk.resolveTarget target with
  | .error error, _, _ | _, .error error, _ | _, _, .error error => .error error
  | .ok text, .ok source, .ok place => .ok ((disk.erase source).put place (.file text))

/-- The files below the working folder with their paths and texts. -/
def files (disk : Disk) : List (String × String) :=
  disk.entries.filterMap fun entry =>
    match entry with
    | (".." :: _, _) | ("/" :: _, _) | (_, .folder) => none
    | (place, .file text) => some (Text.join "/" place, text)

/-- An operation that leaves another disk, unless it fails. -/
def change (operation : Disk → Except OsError Disk) : StateM Disk (Except OsError Unit) :=
  fun disk =>
    match operation disk with
    | .ok next => (.ok (), next)
    | .error error => (.error error, disk)

instance : Files (StateM Disk) where
  isThere path := fun disk => (disk.isThere path, disk)
  isFolder path := fun disk => (disk.isFolder path, disk)
  readText path := fun disk => (disk.readText path, disk)
  createFolder path := Disk.change fun disk => disk.createFolder path
  writeText path text := Disk.change fun disk => disk.writeText path text
  rename path target := Disk.change fun disk => disk.rename path target

/-- Puts a file with a text on the disk, and the folders that it is in. -/
def putFile (disk : Disk) (path text : String) : Disk :=
  let folders : StateM Disk (Except OsError Unit) := Files.createFolders ((Path.parent? path).getD "")
  let (_, prepared) := folders.run disk
  (prepared.writeText path text).toOption.getD prepared

/-- The disk with the given files and the folders that they are in. -/
def ofFiles (files : List (String × String)) : Disk :=
  files.foldl (fun disk file => disk.putFile file.1 file.2) .empty

end Disk

end PerkGraph
