import VoltageStats.FileTree.Statistics

/-!
# Writes and reads of one path at the same time

Any number of writes and reads of one path are under way in a file tree. They take their steps in
any order, and each step can be made to fail (`Traffic.take`). One that takes no more steps has been
stopped where it is. The state remembers which writes have moved their file to its destination, and
in which order.
-/

namespace VoltageStats

/-- The location that a part of a path names from another location. -/
def Location.descend (location : Location) (segment : String) : Location :=
  if segment = "" || segment = "." then location
  else if segment = ".." then location.dropLast
  else location ++ [segment]

namespace FileTree

/-- The location that a path names, whether or not there are directories that lead to it. -/
def locationOf (tree : FileTree) (path : String) : Location :=
  (Path.segments path).foldl Location.descend (tree.start path)

/-- What the file that a path names holds. A path that ends in no name of a file names none. -/
def held? (tree : FileTree) (path : String) : Option Contents :=
  if (Path.fileName? path).isSome then tree.file? (tree.locationOf path) else none

end FileTree

/-- How far reading has come. -/
inductive Reading where
  | waiting
  /-- Opening has led to something. A file that was opened is read as it was then. -/
  | opened (result : Except PathFault Contents)
  | ended (result : Except ReadError Statistics)

/-- The next step of reading, which can be made to fail. -/
def Reading.step (path : String) (isFailing : Bool) (tree : FileTree) : Reading → Reading
  | .waiting => if isFailing then .ended (.error .unreadable) else .opened (tree.open? path)
  | .opened result => .ended (if isFailing then .error .unreadable else readOpened path result)
  | .ended result => .ended result

/-- Whether a step from one phase to another has moved the file to its destination. -/
def Writing.Phase.isMove : (before after : Writing.Phase) → Bool
  | .complete _, .ended (.ok ()) => true
  | _, _ => false

/-- Headers and arrays that are written to one path. No temporary file has the name of the file at
the path. -/
structure Traffic (ι : Type) where
  path : String
  metadata : ι → Metadata
  data : ι → Data
  /-- The name of the temporary file of each write. -/
  temporary : ι → String
  temporary_ne : ∀ i, Path.fileName? path ≠ some (temporary i)

namespace Traffic

variable {ι κ : Type}

/-- A step of one of the writes or of one of the reads. -/
inductive Action (ι κ : Type) where
  | write (i : ι) (isFailing : Bool)
  | read (j : κ) (isFailing : Bool)

/-- A file tree, and how far the writes and the reads have come. -/
structure State (ι κ : Type) where
  tree : FileTree
  phase : ι → Writing.Phase
  reading : κ → Reading
  /-- The writes that have moved their file to its destination, in order. -/
  moved : List ι

/-- The state in which nothing has been done. -/
def State.initial (tree : FileTree) : State ι κ :=
  ⟨tree, fun _ => .unchecked, fun _ => .waiting, []⟩

/-- One of the writes. -/
def writing (t : Traffic ι) (i : ι) : Writing := ⟨t.path, t.metadata i, t.data i, t.temporary i⟩

/-- The complete archive of one of the writes. -/
def contents (t : Traffic ι) (i : ι) : Contents :=
  .archive (.ofMembers (Archive.membersOf (t.metadata i) (t.data i)))

/-- What the last of some writes has left, and what was there before them if there are none. -/
def latest (t : Traffic ι) (initial : Option Contents) (moved : List ι) : Option Contents :=
  match moved.getLast? with
  | none => initial
  | some i => some (t.contents i)

/-- The state after a write has come to a tree and a phase. -/
def State.advance [DecidableEq ι] (state : State ι κ) (i : ι)
    (next : FileTree × Writing.Phase) : State ι κ :=
  { state with
    tree := next.1
    phase := fun k => if k = i then next.2 else state.phase k
    moved := if (state.phase i).isMove next.2 then state.moved ++ [i] else state.moved }

/-- The state after a step. -/
def take [DecidableEq ι] [DecidableEq κ] (t : Traffic ι) (state : State ι κ) :
    Action ι κ → State ι κ
  | .write i isFailing =>
    state.advance i ((t.writing i).step isFailing state.tree (state.phase i))
  | .read j isFailing =>
    let next := (state.reading j).step t.path isFailing state.tree
    { state with reading := fun k => if k = j then next else state.reading k }

/-- The state after some steps, in a tree that was there before them. -/
def after [DecidableEq ι] [DecidableEq κ] (t : Traffic ι) (tree : FileTree)
    (actions : List (Action ι κ)) : State ι κ :=
  actions.foldl t.take (.initial tree)

end Traffic

end VoltageStats
