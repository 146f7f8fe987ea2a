import VoltageStats.Zip.Directory

/-!
# Writing zip containers

Members are stored as they are, in order, each behind a header of its own. The directory and the
end record follow. Names that are not ASCII are marked as UTF-8.
-/

namespace VoltageStats.Zip

open LittleEndian

/-- The fields that the header of a member and its listing in the directory share. -/
def sharedFields (name : String) (contents : ByteArray) : List UInt8 :=
  let flags := if name.toList.all (·.toNat < 128) then 0 else 2048
  encode 2 20 ++ encode 2 flags ++ encode 2 0 ++ encode 2 0 ++ encode 2 0x21 ++
    encode 4 (Crc32.checksum contents).toNat ++ encode 4 contents.size ++
    encode 4 contents.size ++ encode 2 name.utf8ByteSize ++ encode 2 0

/-- The header of a member and its name. -/
def localHeader (name : String) (contents : ByteArray) : List UInt8 :=
  encode 4 0x04034b50 ++ sharedFields name contents ++ name.toUTF8.data.toList

/-- The listing of a member whose header is at a position. -/
def centralHeader (name : String) (contents : ByteArray) (position : Nat) : List UInt8 :=
  encode 4 0x02014b50 ++ encode 2 20 ++ sharedFields name contents ++ encode 2 0 ++ encode 2 0 ++
    encode 2 0 ++ encode 4 0 ++ encode 4 position ++ name.toUTF8.data.toList

/-- The container of some members. -/
def encodeMembers (members : List (String × ByteArray)) : ByteArray :=
  let (data, directory) := members.foldl
    (fun (data, directory) (name, contents) =>
      (data ++ ⟨(localHeader name contents).toArray⟩ ++ contents,
        directory ++ centralHeader name contents data.size))
    (ByteArray.empty, ([] : List UInt8))
  let endRecord := encode 4 0x06054b50 ++ encode 2 0 ++ encode 2 0 ++ encode 2 members.length ++
    encode 2 members.length ++ encode 4 directory.length ++ encode 4 data.size ++ encode 2 0
  data ++ ⟨(directory ++ endRecord).toArray⟩

end VoltageStats.Zip
