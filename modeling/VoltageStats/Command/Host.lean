import VoltageStats.FileTree.Statistics

/-!
# Hosts

Commands are run on a host, which keeps the files, takes the records of the log and the printed
text, and supplies the noise that samples are drawn from. `Session` is a host that is a value: a
file tree, with everything that has been logged and printed.
-/

namespace VoltageStats

/-- The levels of the records of a log that are always shown. -/
inductive LogLevel where
  | info
  | warning
  deriving DecidableEq, Repr

/-- The name of a level. -/
def LogLevel.name : LogLevel → String
  | info => "INFO"
  | warning => "WARN"

/-- A record of a log. -/
structure LogRecord where
  level : LogLevel
  message : String
  deriving DecidableEq, Repr

/-- The verbosity from which on the further lines of a record are not indented. -/
def flushVerbosity : Nat := 3

/-- A record as it is shown. Its further lines are indented, unless the log is very detailed. -/
def LogRecord.text (verbosity : Nat) (r : LogRecord) : String :=
  let newline := if verbosity < flushVerbosity then "\n    ".toList else ['\n']
  let chars := r.message.toList.flatMap fun c => if c = '\n' then newline else [c]
  r.level.name ++ " " ++ String.ofList chars

/-- What commands are run on. -/
class Host (m : Type → Type) where
  /-- Adds a record to the log. -/
  log : LogRecord → m Unit
  /-- Prints a line. -/
  print : String → m Unit
  /-- What the file at a path holds. -/
  open? : (path : String) → m (Except PathFault Contents)
  /-- Makes the file at a path, or makes it empty if it is there. -/
  create : (path : String) → m (Except PathFault Unit)
  /-- Fills the file at a path with a text. -/
  fill : (path text : String) → m (Except PathFault Unit)
  /-- Writes a header and arrays to the file at a path. -/
  write : (path : String) → Metadata → Data → m (Except WriteError Unit)
  /-- Standard normal deviates. -/
  noise : m (Nat → Binary64)

/-- A host that is a value. -/
structure Session where
  tree : FileTree
  /-- The records of the log, in order. -/
  log : List LogRecord
  /-- The printed lines, in order. -/
  printed : List String
  noise : Nat → Binary64

namespace Session

/-- Puts a file into the tree. -/
def put (path : String) (contents : Contents) : StateM Session (Except PathFault Unit) := fun s =>
  match s.tree.place path with
  | .ok location => (.ok (), { s with tree := s.tree.setFile location contents })
  | .error fault => (.error fault, s)

instance : Host (StateM Session) where
  log r := fun s => ((), { s with log := s.log ++ [r] })
  print line := fun s => ((), { s with printed := s.printed ++ [line] })
  open? path := fun s => (s.tree.open? path, s)
  create path := put path (.bytes .empty)
  fill path text := put path (.bytes text.toUTF8)
  write path metadata data := fun s =>
    let (tree, result) := s.tree.write path metadata data
    (result, { s with tree := tree })
  noise := fun s => (s.noise, s)

end Session

end VoltageStats
