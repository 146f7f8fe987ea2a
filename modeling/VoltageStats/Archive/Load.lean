import VoltageStats.Archive
import VoltageStats.Archive.Words
import VoltageStats.Header.Record
import VoltageStats.Npy.File

/-!
# Loading statistics

`Archive.load` takes the statistics out of an archive. The format version is looked at first, then
the header record, then the arrays one by one; whichever of them is missing or is not what the
header says is reported.
-/

namespace VoltageStats

open Npy (ArrayFile FileFault ScalarType)

/-- Why an archive holds no statistics. -/
inductive FormatError where
  | missingMember (key : String)
  /-- A member has elements of another type than it must have. -/
  | badElementType (key expected actual : String)
  /-- A member is no array file. -/
  | badArray (key : String)
  /-- The header record cannot be read. -/
  | badRecord (error : RecordError)
  /-- The text of a member is not UTF-8. -/
  | invalidUtf8 (key : HeaderKey)
  | unsupportedVersion (version : String)
  | badContainer
  /-- The header and the arrays do not fit together. -/
  | inconsistent (error : StatsError)
  deriving DecidableEq, Repr

/-- The message for an archive that holds no statistics. What is wrong with an array file or a
container is not told. -/
def FormatError.message : FormatError → String
  | missingMember key => s!"The STAT file doesn't contain the required key {key}"
  | badElementType key expected actual =>
    s!"Expected {key} to have dtype {expected}, but it had {actual} instead!"
  | badArray key => s!"Couldn't decode the array stored under {key}"
  | badRecord error => error.message
  | invalidUtf8 key => s!"The {key.name} field is not valid UTF-8"
  | unsupportedVersion version =>
    s!"Unsupported STAT file format version '{version}'; supported versions are: " ++
      ", ".intercalate supportedVersions
  | badContainer => "Not a STAT file container"
  | inconsistent error => error.message

/-- Why statistics cannot be loaded: for what the archive holds, or because it cannot be read. -/
inductive LoadError where
  | format (error : FormatError)
  | unreadable
  deriving DecidableEq, Repr

/-- What the fault of a container means for loading. -/
def LoadError.ofContainer : ContainerFault → LoadError
  | .malformed => .format .badContainer
  | .unreadable => .unreadable

/-- The name of the member with a key. -/
def memberName (key : String) : String := key ++ ".npy"

/-- What the fault of an array file means for loading. To run out of bytes is to read to the end
of the member, where damage is found out. -/
def Member.loadError (member : Member) (key : String) : FileFault → LoadError
  | .malformed => .format (.badArray key)
  | .outOfBytes => if member.isIntact then .format (.badArray key) else .unreadable

namespace Archive

/-- The array file with a key, whose elements must have a type; its payload is cut to them. -/
def loadFile (archive : Archive) (key : String) (type : ScalarType) :
    Except LoadError ArrayFile := do
  match archive.find? (memberName key) with
  | none => throw (.format (.missingMember key))
  | some (.error fault) => throw (.ofContainer fault)
  | some (.ok member) =>
    match ArrayFile.parse member.bytes with
    | .error fault => throw (member.loadError key fault)
    | .ok file =>
      let isExpected := match file.elementType with
        | .scalar actual => actual = type
        | .record _ => false
      if !isExpected then
        throw (.format (.badElementType key (Npy.ElementType.scalar type).text
          file.elementType.text))
      match file.elementBytes? type.size with
      | some payload => return { file with payload }
      | none => throw (member.loadError key .outOfBytes)

/-- The format version of an archive, if it is one that is read. -/
def loadVersion (archive : Archive) : Except LoadError String := do
  let file ← archive.loadFile HeaderKey.fileFormatVersion.name .byte
  match String.fromUTF8? file.payload with
  | none => throw (.format (.invalidUtf8 .fileFormatVersion))
  | some version =>
    if version ∈ supportedVersions then return version
    else throw (.format (.unsupportedVersion version))

/-- The header that a record of a version holds, if it is consistent. The zero counts of a legacy
record are not built for a number of channels that the record itself contradicts. -/
def headerOf (bytes : List UInt8) (version : String) : Except FormatError Metadata := do
  let (fields, rest) ← (Record.layout.decode bytes).mapError .badRecord
  let channels := Record.channelCount fields
  let (counts, rest) ←
    if version = legacyVersion then
      pure (Record.noCounts (if Record.frequencyCount fields = channels then channels else 0), rest)
    else (Record.extension.decode rest).mapError .badRecord
  if rest ≠ [] then throw (.badRecord (.trailing rest.length))
  let metadata := Record.assemble version fields counts
  metadata.validate.mapError .inconsistent
  return metadata

/-- The header of an archive. -/
def loadHeader (archive : Archive) (version : String) : Except LoadError Metadata := do
  let file ← archive.loadFile headerMember .byte
  (headerOf file.payload.data.toList version).mapError .format

/-- The array of a key, which must have the shape that a header says. -/
def loadTensor (archive : Archive) (m : Metadata) (key : DataKey) :
    Except LoadError (Tensor (key.kind.Element Binary32 UInt32)) := do
  let file ← archive.loadFile key.name key.kind.scalarType
  let badShape := LoadError.format
    (.inconsistent (.badShape key.name (m.expectedShape key) file.shape))
  if file.shape ≠ m.expectedShape key then throw badShape
  let cells := (wordsOf file.payload).map key.kind.ofWord
  let tensor? := if file.isColumnMajor then Tensor.ofColumnMajor? file.shape cells
    else Tensor.ofCells? file.shape cells
  match tensor? with
  | some tensor => return tensor
  | none => throw badShape

/-- The statistics that an archive holds. -/
def load (archive : Archive) : Except LoadError Statistics := do
  let version ← archive.loadVersion
  let metadata ← archive.loadHeader version
  let data ← StatArrays.ofFnM (archive.loadTensor metadata)
  (Statistics.ofParts metadata data).mapError (.format ∘ .inconsistent)

end Archive

end VoltageStats
