/-!
# Archives

An archive is a list of named members, as a container gives them back. A container may refuse to
give back a member, and the reading of a member that was damaged fails once it goes past the
end. Of members with the same name the last one is found (`Archive.find?`).
-/

namespace VoltageStats

/-- Why a container, or a member in it, cannot be had. -/
inductive ContainerFault where
  /-- It breaks the rules of the format, or needs what is not supported. -/
  | malformed
  /-- Reading it fails. -/
  | unreadable
  deriving DecidableEq, Repr

/-- The contents of a member. -/
structure Member where
  bytes : ByteArray
  /-- Whether the contents have the checksum that the container gives for them. -/
  isIntact : Bool

/-- An archive: names with what the container gives for them. -/
structure Archive where
  entries : List (String × Except ContainerFault Member)

namespace Archive

/-- What is found under a name. -/
def find? (archive : Archive) (name : String) : Option (Except ContainerFault Member) :=
  (archive.entries.reverse.find? (·.1 = name)).map (·.2)

/-- The archive of some members. -/
def ofMembers (members : List (String × ByteArray)) : Archive :=
  ⟨members.map fun (name, bytes) => (name, .ok ⟨bytes, true⟩)⟩

/-- The members that the container gives back. -/
def members (archive : Archive) : List (String × ByteArray) :=
  archive.entries.filterMap fun (name, entry) =>
    match entry with
    | .ok member => some (name, member.bytes)
    | .error _ => none

end Archive

end VoltageStats
