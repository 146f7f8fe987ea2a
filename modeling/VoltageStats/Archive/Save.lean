import VoltageStats.Archive
import VoltageStats.Archive.Load
import VoltageStats.Header.Record
import VoltageStats.Npy.File

/-!
# Saving statistics

`Archive.save` makes the archive of a header and arrays that fit together: the current format
version, the header record and the twenty arrays, one member each.
-/

namespace VoltageStats

open Npy (ArrayFile ScalarType)

/-- Why statistics cannot be saved. -/
inductive SaveError where
  /-- The header and the arrays do not fit together. -/
  | inconsistent (error : StatsError)
  /-- A member is too large for the container. -/
  | oversized
  deriving DecidableEq, Repr

/-- The member for some bytes under a key. -/
def byteMember (key : String) (bytes : ByteArray) : String × ByteArray :=
  (memberName key, ArrayFile.encode .byte [bytes.size] bytes)

/-- The member for the array of a key. -/
def tensorMember (d : Data) (key : DataKey) : String × ByteArray :=
  let tensor := d.get key
  (memberName key.name, ArrayFile.encode key.kind.scalarType tensor.shape
    (wordBytes (tensor.cells.map key.kind.toWord)))

namespace Archive

/-- The members for a header and arrays, in order. -/
def membersOf (m : Metadata) (d : Data) : List (String × ByteArray) :=
  byteMember HeaderKey.fileFormatVersion.name currentVersion.toUTF8 ::
    byteMember headerMember ⟨(Record.encode m).toArray⟩ ::
    DataKey.all.map (tensorMember d)

/-- The largest size of a member. -/
def sizeLimit : Nat := 4294967295

/-- The archive for a header and arrays that pass every check. -/
def save (m : Metadata) (d : Data) : Except SaveError Archive := do
  m.validate.mapError .inconsistent
  (d.validate m).mapError .inconsistent
  let members := membersOf m d
  if members.any fun (_, bytes) => sizeLimit < bytes.size then throw .oversized
  return ofMembers members

end Archive

end VoltageStats
