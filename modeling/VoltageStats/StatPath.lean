import VoltageStats.Decimal.Literal
import VoltageStats.Metadata
import VoltageStats.Path

/-!
# Paths of STAT archives

The archives of a scan are kept below a base directory, by execution block, subsystem and scan.
The name of an archive says when the scan started, at which byte of the scan its data starts, and
which number in the scan it has. `ScanDirectory.path` builds the path of an archive and
`ArchiveName.ofPath` reads the name in a path.
-/

namespace VoltageStats

/-- Why there is no path or no name of an archive. -/
inductive StatPathError where
  | noBasePath
  | noEbId
  | noSubsystem
  | noScanId
  | unknownTelescope (telescope : String)
  /-- A path does not end with the name of an archive. -/
  | unparseable (path : String)
  deriving DecidableEq, Repr

/-- The message where there is no path or no name of an archive. -/
def StatPathError.message : StatPathError → String
  | noBasePath => "The STAT base path has not been set"
  | noEbId => "The execution block ID has not been set"
  | noSubsystem => "The telescope (and therefore subsystem) has not been set"
  | noScanId => "The scan ID has not been set"
  | unknownTelescope telescope =>
    s!"Telescope '{telescope}' does not map to a subsystem; expected SKALow or SKAMid"
  | unparseable path =>
    s!"'{path}' is not a STAT file name (expected <utc_start>_<obs_offset>_<file_number>." ++
      archiveExtension ++ ")"

/-- The directory of the subsystem that a telescope has. -/
def subsystem (telescope : String) : Except StatPathError String :=
  if telescope = "SKALow" then .ok "pst-low"
  else if telescope = "SKAMid" then .ok "pst-mid"
  else .error (.unknownTelescope telescope)

/-- The name of an archive. -/
structure ArchiveName where
  utcStart : String
  obsOffset : UInt64
  fileNumber : UInt64
  deriving DecidableEq, Repr

namespace ArchiveName

/-- A number with zeros in front, up to a number of digits. -/
def padded (width : Nat) (n : UInt64) : String :=
  let digits := Nat.toDigits 10 n.toNat
  String.ofList (List.replicate (width - digits.length) '0' ++ digits)

/-- The text of a name. -/
def text (name : ArchiveName) : String :=
  name.utcStart ++ "_" ++ padded 16 name.obsOffset ++ "_" ++ padded 6 name.fileNumber ++ "." ++
    archiveExtension

/-- The digits at the end of a reversed text up to an underscore, and what is before it. -/
def lastNumber? (reversed : List Char) : Option (UInt64 × List Char) := do
  let digits := reversed.takeWhile (· ≠ '_')
  let value ← Literal.natural? digits.reverse
  match reversed.drop digits.length with
  | _ :: before => if value < 2 ^ 64 then some (UInt64.ofNat value, before) else none
  | [] => none

/-- The name with a text. -/
def ofText? (text : String) : Option ArchiveName := do
  let ending := ("." ++ archiveExtension).toList.reverse
  let reversed := text.toList.reverse
  if reversed.take ending.length ≠ ending then none
  let (fileNumber, before) ← lastNumber? (reversed.drop ending.length)
  let (obsOffset, before) ← lastNumber? before
  let utcStart := before.reverse
  if utcStart = [] || utcStart.contains '\n' then none
  return ⟨String.ofList utcStart, obsOffset, fileNumber⟩

/-- The name of the archive that a path leads to. -/
def ofPath (path : String) : Except StatPathError ArchiveName :=
  match Path.fileName? path >>= ofText? with
  | some name => .ok name
  | none => .error (.unparseable path)

end ArchiveName

/-- What is known about where the archives of a scan are kept. -/
structure ScanDirectory where
  basePath : Option String
  ebId : Option String
  subsystem : Option String
  scanId : Option String
  deriving DecidableEq, Repr

namespace ScanDirectory

/-- Nothing is known. -/
def unknown : ScanDirectory := ⟨none, none, none, none⟩

/-- The directory with the subsystem of a telescope. -/
def withTelescope (d : ScanDirectory) (telescope : String) :
    Except StatPathError ScanDirectory := do
  return { d with subsystem := some (← VoltageStats.subsystem telescope) }

/-- Something that can be told about a scan. -/
inductive Detail where
  | basePath (path : String)
  | ebId (id : String)
  | telescope (name : String)
  | scanId (id : String)
  deriving DecidableEq, Repr

/-- The directory with a detail in place of what was known of it. A telescope without a subsystem
leaves it as it is. -/
def learn (d : ScanDirectory) : Detail → ScanDirectory
  | .basePath path => { d with basePath := some path }
  | .ebId id => { d with ebId := some id }
  | .telescope name =>
    match d.withTelescope name with
    | .ok d => d
    | .error _ => d
  | .scanId id => { d with scanId := some id }

/-- The directory with some details, told one after the other. -/
def ofDetails (details : List Detail) : ScanDirectory := details.foldl learn unknown

/-- The directory for the scan that a header tells of. -/
def ofMetadata (basePath : String) (m : Metadata) : Except StatPathError ScanDirectory :=
  ({ unknown with
      basePath := some basePath, ebId := some m.ebId
      scanId := some (toString m.scanId) } : ScanDirectory).withTelescope m.telescope

/-- The directory from named values; what is not named is not known. -/
def ofEntries (value? : String → Option String) : Except StatPathError ScanDirectory :=
  let d : ScanDirectory :=
    { unknown with
      basePath := value? "STAT_BASE_PATH", ebId := value? "EB_ID", scanId := value? "SCAN_ID" }
  match value? "TELESCOPE" with
  | some telescope => d.withTelescope telescope
  | none => .ok d

/-- A value that is known and not empty. -/
def required (value : Option String) (error : StatPathError) : Except StatPathError String :=
  match value with
  | some text => if text = "" then .error error else .ok text
  | none => .error error

/-- The path of an archive. -/
def path (d : ScanDirectory) (name : ArchiveName) : Except StatPathError String := do
  let basePath ← required d.basePath .noBasePath
  let ebId ← required d.ebId .noEbId
  let subsystem ← required d.subsystem .noSubsystem
  let scanId ← required d.scanId .noScanId
  return ["product", ebId, subsystem, scanId, "monitoring_stats", name.text].foldl Path.join
    basePath

end ScanDirectory

end VoltageStats
