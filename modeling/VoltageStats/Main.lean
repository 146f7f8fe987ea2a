import VoltageStats.Command.Run
import VoltageStats.Zip.Encoding

/-!
# The program

The program runs its command line on the files of the system. The log goes to the standard output,
unless a document is printed there; then it goes to the standard error output.
-/

namespace VoltageStats

/-- Where the log goes, and how detailed it is. -/
structure Console where
  isDocument : Bool
  verbosity : Nat

/-- The program as a host of commands. -/
abbrev Program : Type → Type := ReaderT Console IO

namespace Program

/-- What an action on files yields. -/
def attempt {α : Type} (action : IO α) : IO (Except PathFault α) := do
  try return .ok (← action)
  catch
    | .noFileOrDirectory .. => return .error .missing
    | _ => return .error .refused

/-- A word with the bits of another thoroughly mixed. -/
def mix (word : UInt64) : UInt64 :=
  let word := (word ^^^ (word >>> 30)) * 0xbf58476d1ce4e5b9
  let word := (word ^^^ (word >>> 27)) * 0x94d049bb133111eb
  word ^^^ (word >>> 31)

/-- A number above zero and below one from the bits of a word. -/
def fraction (word : UInt64) : Float := ((mix word >>> 11).toFloat + 0.5) / 9007199254740992.0

/-- A standard normal deviate from two such numbers. -/
def deviate (seed : UInt64) (position : Nat) : Binary64 :=
  let word := seed + 0x9e3779b97f4a7c15 * UInt64.ofNat (2 * position)
  let radius := Float.sqrt (-2.0 * Float.log (fraction word))
  let angle := 6.283185307179586 * fraction (word + 0x9e3779b97f4a7c15)
  ⟨(radius * Float.cos angle).toBits⟩

/-- Writes an archive to a temporary file, which is then moved to its place. -/
def writeArchive (path : String) (archive : Archive) : IO Unit := do
  let directory := Path.directory path
  IO.FS.createDirAll directory
  let temporary := Path.join directory s!".tmp{← IO.rand 0 999999999}"
  try
    IO.FS.writeBinFile temporary (Zip.encodeMembers archive.members)
    IO.FS.rename temporary path
  catch error =>
    try IO.FS.removeFile temporary catch _ => pure ()
    throw error

instance : Host Program where
  log r := do
    let console ← read
    let line := r.text console.verbosity
    if console.isDocument then IO.eprintln line else IO.println line
  print line := IO.println line
  open? path := attempt do return .bytes (← IO.FS.readBinFile path)
  create path := attempt (IO.FS.writeBinFile path .empty)
  fill path content := attempt (IO.FS.writeFile path content)
  write path metadata data := do
    match Archive.save metadata data with
    | .error (.inconsistent error) => return .error (.inconsistent error)
    | .error .oversized => return .error .unwritable
    | .ok archive =>
      match ← attempt (writeArchive path archive) with
      | .ok () => return .ok ()
      | .error _ => return .error .unwritable
  noise := do
    let seed ← IO.rand 0 (2 ^ 62)
    return deviate (UInt64.ofNat seed)

end Program

/-- How a parameter is written on a command line. -/
def CommandLine.Parameter.usage (p : CommandLine.Parameter) : String :=
  let letter := match p.letter with
    | some c => s!"-{c}, "
    | none => "    "
  let value := match p.arity with
    | .none => ""
    | .one => " VALUE"
    | .several => " VALUE.."
  "  " ++ letter ++ "--" ++ p.name ++ value

/-- How the program is called. -/
def usage : String :=
  let describe (title : String) (g : CommandLine.Grammar) : List String :=
    title :: g.parameters.map (·.usage)
  "\n".intercalate (describe s!"{Command.programName} OPTIONS COMMAND" CommandLine.mainGrammar ++
    describe s!"{Command.programName} generate OPTIONS ARGUMENTS_FILE" CommandLine.generateGrammar ++
    describe s!"{Command.programName} summary OPTIONS STAT_FILE" CommandLine.summaryGrammar)

/-- Whether a command prints a document. -/
def Command.isDocument : Command → Bool
  | .summary request => request.isJson
  | .generate _ _ => false

/-- Runs a command line. Yields the exit code of the program. -/
def runArguments (arguments : List String) : IO UInt32 := do
  match Invocation.ofArguments arguments with
  | .error (.request name) =>
    IO.println
      (if name = "version" then s!"{Command.programName} {Command.programVersion}" else usage)
    return 0
  | .error .misuse =>
    IO.eprintln usage
    return 2
  | .ok invocation =>
    let run : Program (Except CommandError Unit) := invocation.run.run
    match ← run.run ⟨invocation.command.isDocument, invocation.verbosity⟩ with
    | .ok () => return 0
    | .error error =>
      IO.eprintln s!"Error: {error.message}"
      return 1

end VoltageStats

/-- Runs the program's command line. -/
def main (arguments : List String) : IO UInt32 := VoltageStats.runArguments arguments
