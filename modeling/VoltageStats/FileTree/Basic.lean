import VoltageStats.Archive
import VoltageStats.Path

/-!
# File trees

A file tree is the directories and files of a host, with the working directory of the program. A
path that starts with a slash is followed from the root, any other one from the working directory.
The directory above the root is the root. Directories and files are known by the names on the way
to them from the root.
-/

namespace VoltageStats

/-- What a file holds. -/
inductive Contents where
  | bytes (bytes : ByteArray)
  | archive (archive : Archive)
  /-- An archive of which not all members have been written. -/
  | unfinished

/-- The names on the way to a directory or a file. -/
abbrev Location : Type := List String

/-- Why a path does not lead to what is wanted. -/
inductive PathFault where
  /-- There is nothing with that name. -/
  | missing
  /-- There is something that does not allow it. -/
  | refused
  deriving DecidableEq, Repr

/-- Directories and files, and the working directory. The working directory and those on the way to
it are there, whether or not they are listed. -/
structure FileTree where
  workingDirectory : Location
  directories : List Location
  files : List (Location × Contents)

/-- Where a path leads. -/
inductive Target where
  /-- To a directory that is there. -/
  | directory (location : Location)
  /-- To a name in a directory that is there, which may be anything or nothing. -/
  | name (location : Location)
  deriving DecidableEq, Repr

namespace FileTree

/-- A root without anything in it, which is the working directory. -/
def empty : FileTree := ⟨[], [], []⟩

/-- Whether there is a directory at a location. -/
def isDirectory (tree : FileTree) (location : Location) : Bool :=
  location.isPrefixOf tree.workingDirectory || tree.directories.contains location

/-- The file at a location. -/
def file? (tree : FileTree) (location : Location) : Option Contents := tree.files.lookup location

/-- The tree with a file at a location, in place of any that was there. -/
def setFile (tree : FileTree) (location : Location) (contents : Contents) : FileTree :=
  { tree with files := tree.files.filter (·.1 ≠ location) ++ [(location, contents)] }

/-- The tree without a file at a location. -/
def removeFile (tree : FileTree) (location : Location) : FileTree :=
  { tree with files := tree.files.filter (·.1 ≠ location) }

/-- Whether a name is short enough for a file or a directory. -/
def isPossibleName (name : String) : Bool := name.utf8ByteSize ≤ 255

/-- Whether a path can be handed to the host, which marks its end with a zero. -/
def isPossiblePath (path : String) : Bool :=
  path.utf8ByteSize < 4096 && !path.toList.contains '\x00'

/-- Where a path is followed from. -/
def start (tree : FileTree) (path : String) : Location :=
  if Path.isAbsolute path then [] else tree.workingDirectory

/-- The directory that is reached from a directory by a part of a path. -/
def enter (tree : FileTree) (location : Location) (segment : String) :
    Except PathFault Location := do
  if segment = "" || segment = "." then return location
  else if segment = ".." then return location.dropLast
  else if !isPossibleName segment then throw .refused
  else
    let next := location ++ [segment]
    if tree.isDirectory next then return next
    else if (tree.file? next).isSome then throw .refused
    else throw .missing

/-- Where the last part of a path leads from a directory. -/
def finish (location : Location) (segment : String) : Except PathFault Target := do
  if segment = "" || segment = "." then return .directory location
  else if segment = ".." then return .directory location.dropLast
  else if !isPossibleName segment then throw .refused
  else return .name (location ++ [segment])

/-- Where a path leads. -/
def locate (tree : FileTree) (path : String) : Except PathFault Target := do
  if path = "" then throw .missing
  if !isPossiblePath path then throw .refused
  let segments := Path.segments path
  let location ← segments.dropLast.foldlM tree.enter (tree.start path)
  finish location (segments.getLast?.getD "")

/-- The file that a path leads to. -/
def open? (tree : FileTree) (path : String) : Except PathFault Contents := do
  match ← tree.locate path with
  | .directory _ => throw .refused
  | .name location =>
    if tree.isDirectory location then throw .refused
    match tree.file? location with
    | some contents => return contents
    | none => throw .missing

/-- The location of a file that a path leads to or that can be made there. -/
def place (tree : FileTree) (path : String) : Except PathFault Location := do
  match ← tree.locate path with
  | .directory _ => throw .refused
  | .name location => if tree.isDirectory location then throw .refused else return location

/-- Makes the directory that a part of a path names, unless it is there. -/
def makeDirectory (tree : FileTree) (location : Location) (segment : String) :
    FileTree × Except PathFault Location :=
  match tree.enter location segment with
  | .error .missing =>
    let next := location ++ [segment]
    ({ tree with directories := tree.directories ++ [next] }, .ok next)
  | result => (tree, result)

/-- Makes the directories on a path, one after the other, up to the first that cannot be made. -/
def makeDirectoriesFrom (tree : FileTree) (location : Location) :
    List String → FileTree × Except PathFault Location
  | [] => (tree, .ok location)
  | segment :: rest =>
    match tree.makeDirectory location segment with
    | (tree, .ok next) => makeDirectoriesFrom tree next rest
    | (tree, .error fault) => (tree, .error fault)

/-- Makes the directory that a path leads to and all on the way to it. -/
def makeDirectories (tree : FileTree) (path : String) : FileTree × Except PathFault Location :=
  if !isPossiblePath path then (tree, .error .refused)
  else tree.makeDirectoriesFrom (tree.start path) (Path.segments path)

/-- Everything below the working directory, a slash after each directory, in order. -/
def listing (tree : FileTree) : List String :=
  let below (location : Location) : Option Location :=
    if tree.workingDirectory.isPrefixOf location && location ≠ tree.workingDirectory then
      some (location.drop tree.workingDirectory.length)
    else none
  let directories := (tree.directories.filterMap below).map fun location =>
    "/".intercalate location ++ "/"
  let files := (tree.files.filterMap fun (location, _) => below location).map fun location =>
    "/".intercalate location
  (directories ++ files).mergeSort (· ≤ ·)

end FileTree

end VoltageStats
