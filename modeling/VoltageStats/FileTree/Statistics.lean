import VoltageStats.Archive.Load
import VoltageStats.Archive.Save
import VoltageStats.FileTree.Basic
import VoltageStats.Zip.Directory

/-!
# Statistics in files

Statistics are read from the archive that a path leads to. They are written in steps
(`Writing.step`): they are checked, the directories on the path are made, a temporary file is
made beside the destination and filled member by member, and at the end it is moved to its
destination. Until then nothing at the destination changes, and a step that fails removes the
temporary file. `FileTree.write` takes one step after the other.
-/

namespace VoltageStats

/-- Why statistics cannot be read from a file. -/
inductive ReadError where
  /-- There is no file at a path. -/
  | notFound (path : String)
  | format (error : FormatError)
  /-- Reading the file fails. -/
  | unreadable
  deriving DecidableEq, Repr

/-- The message where statistics cannot be read. -/
def ReadError.message : ReadError → String
  | notFound path => s!"STAT file '{path}' does not exist"
  | format error => error.message
  | unreadable => "The file cannot be read"

/-- Why statistics cannot be written to a file. -/
inductive WriteError where
  /-- The header and the arrays do not fit together. -/
  | inconsistent (error : StatsError)
  /-- A step of writing the file fails. -/
  | unwritable
  deriving DecidableEq, Repr

/-- The archive that a file holds. -/
def Contents.archive? : Contents → Except ContainerFault Archive
  | bytes b => Zip.parse b
  | archive a => .ok a
  | unfinished => .error .malformed

/-- Reads statistics from what a file holds. -/
def Contents.load (contents : Contents) : Except LoadError Statistics := do
  (← contents.archive?.mapError .ofContainer).load

/-- Whether a file holds an archive in the format without sample counts. -/
def Contents.isLegacy (contents : Contents) : Bool :=
  match contents.archive?.toOption with
  | some held =>
    match held.loadVersion with
    | .ok version => version = legacyVersion
    | .error _ => false
  | none => false

/-- The statistics in the file at a path, from what opening it has led to. -/
def readOpened (path : String) : Except PathFault Contents → Except ReadError Statistics
  | .error .missing => .error (.notFound path)
  | .error .refused => .error .unreadable
  | .ok contents => contents.load.mapError fun
    | .format error => .format error
    | .unreadable => .unreadable

/-- Reads the statistics in the file that a path leads to. -/
def FileTree.read (tree : FileTree) (path : String) : Except ReadError Statistics :=
  readOpened path (tree.open? path)

/-- Some statistics on their way to a file. -/
structure Writing where
  path : String
  metadata : Metadata
  data : Data
  /-- The name of the temporary file. -/
  temporary : String

/-- How far writing has come. -/
inductive Writing.Phase where
  /-- The statistics have not been checked. -/
  | unchecked
  /-- They have been, and make up some members. -/
  | checked (members : List (String × ByteArray))
  /-- The directory of the file is there. -/
  | prepared (directory : Location) (members : List (String × ByteArray))
  /-- Some members are in the temporary file, others are left. -/
  | filling (temporary : Location) (done rest : List (String × ByteArray))
  /-- The temporary file is complete. -/
  | complete (temporary : Location)
  /-- Writing has ended. -/
  | ended (result : Except WriteError Unit)

namespace Writing

/-- The phase in which writing has failed. -/
def failed : Phase := .ended (.error .unwritable)

/-- The next step of writing, which can be made to fail. Checking does not touch the tree and
cannot be made to fail. -/
def step (w : Writing) (isFailing : Bool) (tree : FileTree) : Phase → FileTree × Phase
  | .unchecked =>
    match Archive.save w.metadata w.data with
    | .error (.inconsistent error) => (tree, .ended (.error (.inconsistent error)))
    | .error .oversized => (tree, .checked (Archive.membersOf w.metadata w.data))
    | .ok archive => (tree, .checked archive.members)
  | .checked members =>
    match tree.makeDirectories (Path.directory w.path) with
    | (tree, .ok location) => (tree, if isFailing then failed else .prepared location members)
    | (tree, .error _) => (tree, failed)
  | .prepared location members =>
    let temporary := location ++ [w.temporary]
    if isFailing || tree.isDirectory temporary || (tree.file? temporary).isSome then (tree, failed)
    else (tree.setFile temporary .unfinished, .filling temporary [] members)
  | .filling temporary done [] =>
    if isFailing then (tree.removeFile temporary, failed)
    else (tree.setFile temporary (.archive (.ofMembers done)), .complete temporary)
  | .filling temporary done (member :: rest) =>
    if isFailing || Archive.sizeLimit < member.2.size then (tree.removeFile temporary, failed)
    else (tree, .filling temporary (done ++ [member]) rest)
  | .complete temporary =>
    match tree.place w.path, tree.file? temporary with
    | .ok location, some contents =>
      if isFailing then (tree.removeFile temporary, failed)
      else ((tree.removeFile temporary).setFile location contents, .ended (.ok ()))
    | _, _ => (tree.removeFile temporary, failed)
  | .ended result => (tree, .ended result)

/-- Steps up to the end of writing, none of them made to fail. -/
def run (w : Writing) : (steps : Nat) → FileTree → Phase → FileTree × Except WriteError Unit
  | _, tree, .ended result => (tree, result)
  | 0, tree, _ => (tree, .error .unwritable)
  | steps + 1, tree, phase =>
    let (tree, phase) := w.step false tree phase
    run w steps tree phase

/-- A bound on the number of steps: one for each of the phases, and one for each member. -/
def stepCount : Nat := DataKey.all.length + 10

end Writing

namespace FileTree

/-- A name that no file and no directory of a tree has. -/
def unusedName (tree : FileTree) : String :=
  let names := tree.workingDirectory ++ tree.directories.flatten ++ tree.files.flatMap (·.1)
  ".tmp" ++ String.ofList (List.replicate (names.foldl (fun n name => max n name.length) 0) '0')

/-- Writes a header and arrays to the file at a path. -/
def write (tree : FileTree) (path : String) (metadata : Metadata) (data : Data) :
    FileTree × Except WriteError Unit :=
  let w : Writing := ⟨path, metadata, data, tree.unusedName⟩
  w.run Writing.stepCount tree .unchecked

end FileTree

end VoltageStats
