import VoltageStats.Command.Error
import VoltageStats.Command.Host
import VoltageStats.Generator.Generated

/-!
# Generating archives

Options from the command line and from an argument file are merged, and saved to another such file
if that is asked for. From them follow a configuration, scan identifiers and the path of the
archive, which are logged. Then statistics of noise are written to that path, unless the run is
a dry one.
-/

namespace VoltageStats.Command

section

variable {m : Type → Type} [Monad m] [Host m]

/-- Logs a message. -/
def info (message : String) : ExceptT CommandError m Unit :=
  ExceptT.lift (Host.log ⟨.info, message⟩)

/-- Logs a warning. -/
def warn (message : String) : ExceptT CommandError m Unit :=
  ExceptT.lift (Host.log ⟨.warning, message⟩)

/-- What an action of the host yields. -/
def allowed {ε α : Type} (toError : ε → CommandError) (action : m (Except ε α)) :
    ExceptT CommandError m α := do
  match ← ExceptT.lift action with
  | .ok a => return a
  | .error error => throw (toError error)

/-- The options in an argument file. -/
def readArguments (path : String) : ExceptT CommandError m GivenOptions := do
  let some format := ArgumentFormat.ofPath? path | throw (.argumentFile (.unknownFormat path))
  let contents ← allowed (fun _ => .host) (Host.open? path)
  let .bytes bytes := contents | throw .host
  let some text := String.fromUTF8? bytes | throw .host
  let some given := format.options? text | throw (.argumentFile (.malformed format path))
  return given

/-- The options from the command line and from an argument file; those on the command line count
more. -/
def mergeArguments (path : Option String) (given : GivenOptions) :
    ExceptT CommandError m GivenOptions := do
  match path with
  | some path => return given.orElse (← readArguments path)
  | none => return given

/-- Saves options to an argument file, which is there, but empty, if they cannot be saved. -/
def saveArguments (path : String) (given : GivenOptions) : ExceptT CommandError m Unit := do
  allowed (fun _ => .host) (Host.create path)
  let some text := given.savedText? | throw (.argumentFile .unsavable)
  allowed (fun _ => .host) (Host.fill path text)

/-- What is generated, and where it is written. -/
structure Plan where
  config : Config
  ids : ScanIdentifiers
  path : String

/-- The warning that goes with a missing path. -/
def pathWarnings : StatPathError → List String
  | .unknownTelescope telescope => [s!"Telescope {telescope} did not map to a subsystem path"]
  | _ => []

/-- The plan that follows from options, with warnings about what differs from them. -/
def plan (given : GivenOptions) : ExceptT CommandError m Plan := do
  match Config.ofSettings given.settings with
  | .error error => throw (.config error)
  | .ok config =>
    config.warnings.forM warn
    match given.path with
    | .error error =>
      (pathWarnings error).forM warn
      throw (.noPath error)
    | .ok path => return ⟨config, given.identifiers, path⟩

/-- What is logged about a plan. -/
def Plan.messages (p : Plan) : List String :=
  let flagged := p.config.settings.rfiChannels
  [s!"Output STAT file: {p.path}",
    s!"{p.config.nchan} channels, {p.config.samplesPerChannel} samples per channel, " ++
      s!"{p.config.nfreqBins} frequency bins, {p.config.ntimeBins} temporal bins"] ++
    if flagged = [] then []
    else ["RFI-flagged channels: " ++ HeaderValue.listText (flagged.map fun n => toString n)]

/-- Carries out a plan. -/
def Plan.execute (p : Plan) : ExceptT CommandError m Unit := do
  let noise ← ExceptT.lift Host.noise
  let some generated := p.config.generate (p.config.samplesOf noise) | throw .host
  allowed .ofWrite (Host.write p.path (p.config.headerFor p.ids generated) generated.data)
  info s!"Wrote synthetic statistics to {p.path}"

/-- Generates an archive from options. -/
def generateArchive (isDryRun : Bool) (savePath argumentFile : Option String)
    (given : GivenOptions) : ExceptT CommandError m Unit := do
  let given ← mergeArguments argumentFile given
  if let some path := savePath then saveArguments path given
  let p ← plan given
  p.messages.forM info
  if isDryRun then info "Dry run -- exiting now." else p.execute

end

end VoltageStats.Command
