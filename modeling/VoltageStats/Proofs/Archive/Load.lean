import VoltageStats.Archive.Load
import VoltageStats.Archive.Save
import VoltageStats.Proofs.Archive.Words
import VoltageStats.Proofs.Header.Record
import VoltageStats.Proofs.Npy.File
import VoltageStats.Proofs.Statistics

/-!
# Loading the members of an archive

What each part of loading comes to: a member is found by its name, the header is read from its
record and then checked (`headerOf_eq`), and an array is loaded as it was written
(`loadTensor_ofMembers`).
-/

namespace VoltageStats.Archive

open Npy (ArrayFile ScalarType)

/-! ## Members -/

/-- An entry of a list without repeated names is the one that its name finds. -/
theorem find?_name_eq_some {α : Type} {entries : List (String × α)} {name : String} {x : α}
    (hnames : (entries.map Prod.fst).Nodup) (hmem : (name, x) ∈ entries) :
    entries.find? (·.1 = name) = some (name, x) := by
  induction entries with
  | nil => cases hmem
  | cons entry entries ih =>
      obtain ⟨hnot, hrest⟩ := List.nodup_cons.mp hnames
      rcases List.mem_cons.mp hmem with rfl | hmem
      · simp
      · have hne : entry.1 ≠ name := by
          rintro rfl
          exact hnot (List.mem_map.mpr ⟨_, hmem, rfl⟩)
        rw [List.find?_cons_of_neg (by simpa using hne), ih hrest hmem]

variable {members : List (String × ByteArray)} {name key : String} {bytes : ByteArray}

/-- A member of an archive without repeated names is found by its name. -/
theorem find?_ofMembers (hnames : (members.map Prod.fst).Nodup) (hmem : (name, bytes) ∈ members) :
    (ofMembers members).find? name = some (.ok ⟨bytes, true⟩) := by
  have hentries : ((ofMembers members).entries.reverse.map Prod.fst).Nodup := by
    rw [List.map_reverse, List.Nodup, List.pairwise_reverse, ofMembers, List.map_map]
    exact hnames.imp Ne.symm
  have hentry : (name, Except.ok ⟨bytes, true⟩) ∈ (ofMembers members).entries.reverse := by
    rw [List.mem_reverse]
    exact List.mem_map.mpr ⟨(name, bytes), hmem, rfl⟩
  rw [find?, find?_name_eq_some hentries hentry]
  rfl

/-- An array file that was written is loaded whole. -/
theorem loadFile_ofMembers {type : ScalarType} {shape : List Nat} {payload : ByteArray}
    (htype : type.Readable) (hshape : ∀ n ∈ shape, n < 2 ^ 64) (haxes : shape.length ≤ 256)
    (hvolume : volume shape < 2 ^ 64) (hsize : payload.size = volume shape * type.size)
    (hnames : (members.map Prod.fst).Nodup)
    (hmem : (memberName key, ArrayFile.encode type shape payload) ∈ members) :
    (ofMembers members).loadFile key type =
      .ok { elementType := .scalar type, isColumnMajor := false, shape, payload } := by
  have helements : ArrayFile.elementBytes?
      { elementType := .scalar type, isColumnMajor := false, shape, payload } type.size =
        some payload :=
    ArrayFile.elementBytes?_eq_some hvolume hsize
  simp only [loadFile, find?_ofMembers hnames hmem, ArrayFile.parse_encode htype hshape haxes,
    decide_true, Bool.not_true, Bool.false_eq_true, if_false, helements]
  rfl

/-! ## The header -/

/-- A consistent header has as many frequencies as channels. -/
theorem frequencyCount_eq {version : String} {fields : Record.Fields} {counts : Record.Extension}
    (h : (Record.assemble version fields counts).Consistent) :
    Record.frequencyCount fields = Record.channelCount fields :=
  h.size_channelFreqMhz.symm

/-- The header that a record holds is read whole, and then it is checked. That the counts of a
legacy record are not built for a number of channels that is not its own makes no difference. -/
theorem headerOf_eq (record : List UInt8) (version : String) :
    headerOf record version = (do
      let m ← (Record.decode record version).mapError FormatError.badRecord
      m.validate.mapError FormatError.inconsistent
      return m) := by
  rw [headerOf, Record.decode]
  cases hfields : Record.layout.decode record with
  | error error => rfl
  | ok read =>
  obtain ⟨fields, rest⟩ := read
  simp only [Except.mapError, bind, Except.bind]
  by_cases hversion : version = legacyVersion
  · simp only [if_pos hversion, pure, Except.pure]
    by_cases hrest : rest = []
    · simp only [hrest, ne_eq, not_true_eq_false, if_false]
      by_cases hchannels : Record.frequencyCount fields = Record.channelCount fields
      · simp only [if_pos hchannels]
      · -- Neither header is consistent, and what is reported of both is the same.
        have hsame : (Record.assemble version fields
            (Record.noCounts (Record.channelCount fields))).validate =
              (Record.assemble version fields (Record.noCounts 0)).validate :=
          @Metadata.validate_withCounts (Record.assemble version fields (Record.noCounts 0))
            (Ne.symm hchannels) _
        simp only [if_neg hchannels, hsame]
        cases hvalid : (Record.assemble version fields (Record.noCounts 0)).validate with
        | error error => rfl
        | ok =>
            exact absurd (frequencyCount_eq (Metadata.validate_eq_ok_iff.mp hvalid)) hchannels
    · simp only [ne_eq, hrest, not_false_eq_true, if_true]
      rfl
  · simp only [if_neg hversion]
    cases hcounts : Record.extension.decode rest with
    | error error => rfl
    | ok read =>
    obtain ⟨counts, rest⟩ := read
    by_cases hrest : rest = []
    · simp only [hrest, ne_eq, not_true_eq_false, if_false]
      rfl
    · simp only [ne_eq, hrest, not_false_eq_true, if_true]
      rfl

/-- A header is loaded exactly if it is read from the record and consistent. -/
theorem headerOf_eq_ok_iff {record : List UInt8} {version : String} {m : Metadata} :
    headerOf record version = .ok m ↔ Record.decode record version = .ok m ∧ m.Consistent := by
  simp only [headerOf_eq, except_bind_eq_ok_iff, except_mapError_eq_ok_iff, except_pure_eq_ok_iff]
  constructor
  · rintro ⟨read, hread, ⟨⟩, hvalid, rfl⟩
    exact ⟨hread, Metadata.validate_eq_ok_iff.mp hvalid⟩
  · rintro ⟨hread, hm⟩
    exact ⟨m, hread, (), Metadata.validate_eq_ok_iff.mpr hm, rfl⟩

/-! ## The arrays -/

/-- The elements of a kind are what is left of them as words. -/
theorem ofWord_wordsOf {kind : ElementKind} (cells : Array (kind.Element Binary32 UInt32)) :
    (wordsOf (wordBytes (cells.map kind.toWord))).map kind.ofWord = cells := by
  rw [wordsOf_wordBytes, Array.map_map]
  exact (Array.map_congr_left fun x _ => kind.ofWord_toWord x).trans (Array.map_id' _)

/-- The cells of an array are what is left of them as words. -/
theorem ofCells?_wordBytes {kind : ElementKind} (t : Tensor (kind.Element Binary32 UInt32)) :
    Tensor.ofCells? t.shape ((wordsOf (wordBytes (t.cells.map kind.toWord))).map kind.ofWord) =
      some t := by
  rw [ofWord_wordsOf, Tensor.ofCells?, dif_pos t.size_eq]

section

variable {m : Metadata} {d : Data} {key : DataKey} (hnames : (members.map Prod.fst).Nodup)
  (hmem : tensorMember d key ∈ members) (hshape : d.shapeOf key = m.expectedShape key)
  (hcells : (d.get key).cells.size < 2 ^ 64)

include hnames hmem hshape hcells

/-- The file of an array is loaded whole. -/
theorem loadFile_tensorMember :
    (ofMembers members).loadFile key.name key.kind.scalarType =
      .ok { elementType := .scalar key.kind.scalarType, isColumnMajor := false
            shape := (d.get key).shape
            payload := wordBytes ((d.get key).cells.map key.kind.toWord) } := by
  obtain ⟨haxes, hlengths⟩ := m.expectedShape_bound key
  rw [← hshape, StatArrays.shapeOf] at haxes hlengths
  have hwidth : key.kind.scalarType.size = 4 := by cases key.kind <;> rfl
  exact loadFile_ofMembers key.kind.readable_scalarType
    (fun n hn => Nat.lt_trans (hlengths n hn) (by decide)) (Nat.le_trans haxes (by decide))
    ((d.get key).size_eq ▸ hcells)
    (by rw [size_wordBytes, Array.size_map, (d.get key).size_eq, hwidth]) hnames hmem

theorem loadTensor_ofMembers : (ofMembers members).loadTensor m key = .ok (d.get key) := by
  have hexpected : (d.get key).shape = m.expectedShape key := hshape
  simp only [loadTensor, loadFile_tensorMember hnames hmem hshape hcells, except_bind_eq_ok_iff,
    Except.ok.injEq, exists_eq_left', hexpected, ne_eq, not_true_eq_false, if_false,
    Bool.false_eq_true]
  rw [← hexpected, ofCells?_wordBytes]
  rfl

end

end VoltageStats.Archive
