import VoltageStats.Archive.Save
import VoltageStats.Proofs.Archive.Load

/-!
# Saved archives are loaded

An archive that was saved is loaded as the same header, but for the format version, and the same
arrays (`load_save`). Its members do not depend on the format version that the header names, so
saving what was loaded makes the same members again.
-/

namespace VoltageStats.Archive

open Npy (ArrayFile ScalarType)

variable {m : Metadata} {d : Data} {archive : Archive}

theorem membersOf_withVersion (m : Metadata) (d : Data) (version : String) :
    membersOf (m.withVersion version) d = membersOf m d := rfl

theorem length_membersOf (m : Metadata) (d : Data) : (membersOf m d).length = 22 := rfl

/-- No two members have the same name. -/
theorem nodup_membersOf (m : Metadata) (d : Data) : ((membersOf m d).map Prod.fst).Nodup := by
  have hnames : (membersOf m d).map Prod.fst =
      (HeaderKey.fileFormatVersion.name :: headerMember :: DataKey.all.map DataKey.name).map
        memberName := rfl
  rw [hnames]
  decide +kernel

/-- The array of every key is among the members. -/
theorem tensorMember_mem (m : Metadata) (d : Data) (key : DataKey) :
    tensorMember d key ∈ membersOf m d :=
  List.mem_cons_of_mem _ (List.mem_cons_of_mem _ (List.mem_map_of_mem key.mem_all))

/-- An archive of some members gives them back. -/
theorem members_ofMembers (members : List (String × ByteArray)) :
    (ofMembers members).members = members := by
  rw [Archive.members, ofMembers, List.filterMap_map]
  exact List.filterMap_some

/-- What saving checks: the header, the shapes of the arrays and the sizes of the members. -/
structure Storable (m : Metadata) (d : Data) : Prop where
  consistent : m.Consistent
  shape_eq : ∀ key, d.shapeOf key = m.expectedShape key
  size_le : ∀ member ∈ membersOf m d, member.2.size ≤ sizeLimit

theorem storable_iff :
    Storable m d ↔ m.validate = .ok () ∧ d.validate m = .ok () ∧
      ∀ member ∈ membersOf m d, member.2.size ≤ sizeLimit := by
  rw [Metadata.validate_eq_ok_iff, StatArrays.validate_eq_ok_iff]
  exact ⟨fun h => ⟨h.consistent, h.shape_eq, h.size_le⟩, fun ⟨hm, hd, hs⟩ => ⟨hm, hd, hs⟩⟩

theorem save_eq_ok_iff :
    save m d = .ok archive ↔ Storable m d ∧ archive = ofMembers (membersOf m d) := by
  rw [storable_iff]
  simp only [save, except_bind_eq_ok_iff, except_mapError_eq_ok_iff, except_refuse_eq_ok_iff,
    except_pure_eq_ok_iff, List.any_eq_true, decide_eq_true_eq, not_exists, not_and, Nat.not_lt]
  constructor
  · rintro ⟨⟨⟩, hm, ⟨⟩, hd, hsizes, rfl⟩
    exact ⟨⟨hm, hd, hsizes⟩, rfl⟩
  · rintro ⟨⟨hm, hd, hsizes⟩, rfl⟩
    exact ⟨(), hm, (), hd, hsizes, rfl⟩

/-- Once the header and the arrays are known to fit together only the sizes are left to check. -/
theorem save_of_validate (hm : m.validate = .ok ()) (hd : d.validate m = .ok ()) :
    save m d =
      if (membersOf m d).any fun (_, bytes) => sizeLimit < bytes.size then .error .oversized
      else .ok (ofMembers (membersOf m d)) := by
  simp only [save, hm, hd, Except.mapError, bind, Except.bind]
  split <;> rfl

theorem Storable.withVersion (h : Storable m d) (version : String) :
    Storable (m.withVersion version) d :=
  ⟨h.consistent.withVersion version, h.shape_eq, h.size_le⟩

namespace Storable

/-- The elements of a member are no more than what the container takes. -/
theorem payload_le (h : Storable m d) {key : String} {type : ScalarType} {shape : List Nat}
    {payload : ByteArray}
    (hmem : (memberName key, ArrayFile.encode type shape payload) ∈ membersOf m d) :
    payload.size ≤ sizeLimit :=
  Nat.le_trans (ArrayFile.payload_size_le type shape payload) (h.size_le _ hmem)

/-- A member of bytes is loaded as it was saved. -/
theorem loadFile_byteMember (h : Storable m d) {key : String} {bytes : ByteArray}
    (hmem : byteMember key bytes ∈ membersOf m d) :
    (ofMembers (membersOf m d)).loadFile key .byte =
      .ok { elementType := .scalar .byte, isColumnMajor := false, shape := [bytes.size]
            payload := bytes } := by
  have hsize : bytes.size ≤ sizeLimit := h.payload_le hmem
  unfold sizeLimit at hsize
  apply loadFile_ofMembers ScalarType.readable_byte _ (by simp) _ _ (nodup_membersOf m d) hmem
  · intro n hn
    rw [List.mem_singleton.mp hn]
    omega
  · simp only [volume]
    omega
  · simp [volume, ScalarType.byte]

theorem loadVersion_eq (h : Storable m d) :
    (ofMembers (membersOf m d)).loadVersion = .ok currentVersion := by
  have hfile := h.loadFile_byteMember (List.mem_cons_self)
  have htext : String.fromUTF8? currentVersion.toUTF8 = some currentVersion :=
    fromUTF8?_eq_some_iff.mpr rfl
  have hsupported : currentVersion ∈ supportedVersions := by decide
  simp only [loadVersion, hfile, except_bind_eq_ok_iff, Except.ok.injEq, exists_eq_left', htext,
    if_pos hsupported, except_pure_eq_ok_iff]

theorem loadHeader_eq (h : Storable m d) :
    (ofMembers (membersOf m d)).loadHeader currentVersion = .ok (m.withVersion currentVersion) := by
  have hmem : byteMember headerMember ⟨(Record.encode m).toArray⟩ ∈ membersOf m d :=
    List.mem_cons_of_mem _ List.mem_cons_self
  have hsize := h.payload_le hmem
  rw [ByteArray.size, List.size_toArray, sizeLimit] at hsize
  -- A record that the container takes is short enough for every length field in it.
  have hlength : (Record.encode m).length < 2 ^ 32 := Nat.lt_succ_of_le hsize
  have hfile := h.loadFile_byteMember hmem
  have hrecord : Record.decode (Record.encode m) currentVersion =
      .ok (m.withVersion currentVersion) :=
    Record.decode_current_eq_ok_iff.mpr ⟨rfl, Record.fits_of_length_lt hlength, rfl⟩
  simp only [loadHeader, hfile, except_bind_eq_ok_iff, Except.ok.injEq, exists_eq_left',
    except_mapError_eq_ok_iff]
  exact headerOf_eq_ok_iff.mpr ⟨hrecord, h.consistent.withVersion _⟩

/-- There are fewer cells in an array than a count of 64 bits can tell. -/
theorem size_cells_lt (h : Storable m d) (key : DataKey) : (d.get key).cells.size < 2 ^ 64 := by
  have hsize := h.payload_le (tensorMember_mem m d key)
  rw [size_wordBytes, Array.size_map, sizeLimit] at hsize
  omega

theorem loadTensor_eq (h : Storable m d) (key : DataKey) :
    (ofMembers (membersOf m d)).loadTensor (m.withVersion currentVersion) key =
      .ok (d.get key) :=
  loadTensor_ofMembers (nodup_membersOf m d) (tensorMember_mem m d key) (h.shape_eq key)
    (h.size_cells_lt key)

end Storable

/-- What was saved is loaded, with the format version that it was saved in. -/
theorem load_save (h : Storable m d) :
    (ofMembers (membersOf m d)).load = .ok ⟨m.withVersion currentVersion, d⟩ := by
  have hdata : StatArrays.ofFnM
      ((ofMembers (membersOf m d)).loadTensor (m.withVersion currentVersion)) = .ok d :=
    StatArrays.ofFnM_eq_ok_iff.mpr h.loadTensor_eq
  have hparts : Statistics.ofParts (m.withVersion currentVersion) d =
      .ok ⟨m.withVersion currentVersion, d⟩ :=
    Statistics.ofParts_eq_ok_iff.mpr
      ⟨Metadata.validate_eq_ok_iff.mpr (h.consistent.withVersion _),
        StatArrays.validate_eq_ok_iff.mpr h.shape_eq, rfl⟩
  simp only [load, h.loadVersion_eq, h.loadHeader_eq, hdata, hparts, except_bind_eq_ok_iff,
    Except.ok.injEq, exists_eq_left', except_mapError_eq_ok_iff]

end VoltageStats.Archive
