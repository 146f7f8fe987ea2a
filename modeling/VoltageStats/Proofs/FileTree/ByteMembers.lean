import VoltageStats.Proofs.FileTree.Reading

/-!
# The shapes of the members of bytes

The format version and the header record are documented to be arrays of bytes with one axis. Of
every other array the shape is compared with the one that the header says, but of these two only
the type and the bytes of the elements are looked at. So statistics are read from an archive that
holds the version or the record in any other shape (`FileTree.read_in_any_shape`), and the archive
of anything that was saved can be made into one (`Archive.Storable.load_withBytes`).
-/

namespace VoltageStats

open Npy (ArrayFile ScalarType)

variable {tree : FileTree} {path : String} {contents : Contents} {archive other : Archive}
  {m : Metadata} {d : Data} {s : Statistics}

namespace Archive

variable {key : String} {file : ArrayFile} {shape : List Nat} {bytes : ByteArray}

/-- The keys of the members of bytes. -/
def byteKeys : List String := [HeaderKey.fileFormatVersion.name, headerMember]

/-- The archive holds an array of bytes with one axis under each of the two keys. -/
def IsOneDimensional (archive : Archive) : Prop :=
  ∀ key ∈ byteKeys, ∃ file, archive.arrayFile? key = some file ∧
    file.elementType = .scalar .byte ∧ file.shape.length = 1

/-- Of the members that statistics are loaded from, the other archive holds the same, but that its
two arrays of bytes may have other shapes and orders, with as many elements. -/
structure Reshapes (other archive : Archive) : Prop where
  bytes : ∀ key ∈ byteKeys, ∃ file shape isColumnMajor, archive.arrayFile? key = some file ∧
    other.arrayFile? key = some { file with shape, isColumnMajor } ∧
    volume shape = volume file.shape
  tensors : ∀ key : DataKey,
    other.find? (memberName key.name) = archive.find? (memberName key.name)

/-! ## Loading in any shape -/

/-- How many elements there are is all that a shape says about where they end. -/
theorem elementBytes?_reshape {isColumnMajor : Bool} (width : Nat)
    (hvolume : volume shape = volume file.shape) :
    ArrayFile.elementBytes? { file with shape, isColumnMajor } width =
      file.elementBytes? width := by
  unfold ArrayFile.elementBytes? ArrayFile.elementCount
  dsimp only
  rw [hvolume]

theorem Reshapes.holdsPayload_iff (h : other.Reshapes archive) (hkey : key ∈ byteKeys) :
    other.HoldsPayload key bytes ↔ archive.HoldsPayload key bytes := by
  obtain ⟨file, shape, isColumnMajor, hfile, hother, hvolume⟩ := h.bytes key hkey
  simp only [HoldsPayload, hfile, hother, Option.some.injEq, exists_eq_left',
    elementBytes?_reshape _ hvolume]

/-- The same is loaded whatever the shapes of the members of bytes. -/
theorem Reshapes.load_eq_ok_iff (h : other.Reshapes archive) :
    other.load = .ok s ↔ archive.load = .ok s := by
  have hversion : ∀ version : String,
      other.HoldsPayload HeaderKey.fileFormatVersion.name version.toUTF8 ↔
        archive.HoldsPayload HeaderKey.fileFormatVersion.name version.toUTF8 :=
    fun _ => h.holdsPayload_iff List.mem_cons_self
  have hheader : ∀ record,
      other.HoldsPayload headerMember record ↔ archive.HoldsPayload headerMember record :=
    fun _ => h.holdsPayload_iff (List.mem_cons_of_mem _ List.mem_cons_self)
  have htensor : other.loadTensor = archive.loadTensor := by
    funext m key
    rw [loadTensor, loadTensor, loadFile_congr (h.tensors key)]
  simp only [Archive.load_eq_ok_iff, loadVersion_eq_ok_iff_holdsPayload,
    loadHeader_eq_ok_iff_holdsPayload, hversion, hheader, htensor]

/-- An array with elements of another type is refused, whatever else it holds. -/
theorem loadFile_of_elementType_ne (hfile : archive.arrayFile? key = some file)
    (htype : file.elementType ≠ .scalar .byte) :
    archive.loadFile key .byte =
      .error (.format (.badElementType key "'|u1'" file.elementType.text)) := by
  have htext : (Npy.ElementType.scalar .byte).text = "'|u1'" := by decide
  obtain ⟨member, hfind, hparse⟩ := arrayFile?_eq_some_iff.mp hfile
  obtain ⟨elementType, isColumnMajor, shape, payload⟩ := file
  simp only [loadFile, hfind, hparse]
  cases elementType with
  | record fields =>
      simp only [Bool.not_false, if_true, htext]
      rfl
  | scalar actual =>
      have hne : actual ≠ .byte := fun heq => htype (by rw [heq])
      simp only [hne, decide_false, Bool.not_false, if_true, htext]
      rfl

/-- If the version is not loaded, nothing is. -/
theorem load_of_loadVersion {error : LoadError} (h : archive.loadVersion = .error error) :
    archive.load = .error error := by
  rw [load, h]
  rfl

/-- If the version is loaded and the header is not, nothing is. -/
theorem load_of_loadHeader {version : String} {error : LoadError}
    (hversion : archive.loadVersion = .ok version)
    (hheader : archive.loadHeader version = .error error) : archive.load = .error error := by
  show (archive.loadVersion >>= _) = _
  rw [hversion]
  show (archive.loadHeader version >>= _) = _
  rw [hheader]
  rfl

/-- What is loaded is loaded from two arrays of bytes. They have one axis each exactly if the
archive is as it is documented to be. -/
theorem isOneDimensional_iff (h : archive.load = .ok s) :
    archive.IsOneDimensional ↔ ∃ version, archive.Describes version s.metadata := by
  constructor
  · intro hone
    have haxis : ∀ key ∈ byteKeys, archive.HasOneAxis key := by
      intro key hkey file hfile _ _
      obtain ⟨found, hfound, -, hshape⟩ := hone key hkey
      obtain rfl : found = file := Option.some.inj (hfound.symm.trans hfile)
      exact hshape
    exact (exists_load_iff (haxis _ List.mem_cons_self)
      (haxis _ (List.mem_cons_of_mem _ List.mem_cons_self))).mp ⟨s.data, h⟩
  · rintro ⟨version, hdescribes⟩
    obtain ⟨record, hrecord, -⟩ := hdescribes.header
    have hbytes : ∀ {key bytes}, archive.HoldsBytes key bytes →
        ∃ file, archive.arrayFile? key = some file ∧ file.elementType = .scalar .byte ∧
          file.shape.length = 1 := by
      rintro key bytes ⟨_, file, hfile, hstores⟩
      exact ⟨file, hfile, hstores.elementType_eq, by rw [hstores.shape_eq]; rfl⟩
    intro key hkey
    rcases List.mem_pair.mp hkey with rfl | rfl
    · exact hbytes hdescribes.holds_version
    · exact hbytes hrecord

/-! ## Putting bytes in another shape -/

/-- The archive with an array of bytes as its member with a key. -/
def withBytes (archive : Archive) (key : String) (shape : List Nat) (bytes : ByteArray) : Archive :=
  ⟨archive.entries.filter (·.1 ≠ memberName key) ++
    [(memberName key, .ok ⟨ArrayFile.encode .byte shape bytes, true⟩)]⟩

theorem find?_withBytes_self (archive : Archive) (key : String) (shape : List Nat)
    (bytes : ByteArray) :
    (archive.withBytes key shape bytes).find? (memberName key) =
      some (.ok ⟨ArrayFile.encode .byte shape bytes, true⟩) := by
  simp [find?, withBytes]

theorem find?_withBytes_of_ne {name : String} (hne : name ≠ memberName key) :
    (archive.withBytes key shape bytes).find? name = archive.find? name := by
  have hentries : (archive.entries.filter (·.1 ≠ memberName key)).reverse.find? (·.1 = name) =
      archive.entries.reverse.find? (·.1 = name) := by
    rw [← List.filter_reverse, List.find?_filter]
    refine congrArg (fun p => archive.entries.reverse.find? p) (funext fun entry => ?_)
    by_cases heq : entry.1 = name <;> simp [heq, hne]
  rw [find?, find?, withBytes, List.reverse_append, List.reverse_singleton, List.singleton_append,
    List.find?_cons_of_neg (by simpa using hne.symm), hentries]

theorem memberName_injective : Function.Injective memberName := by
  intro a b h
  exact String.append_left_inj ".npy" |>.mp h

/-- What is written for an array of bytes is taken apart into it. -/
theorem arrayFile?_of_encode (hshape : ∀ n ∈ shape, n < 2 ^ 64) (haxes : shape.length ≤ 256)
    (hfind : archive.find? (memberName key) =
      some (.ok ⟨ArrayFile.encode .byte shape bytes, true⟩)) :
    archive.arrayFile? key =
      some { elementType := .scalar .byte, isColumnMajor := false, shape, payload := bytes } := by
  simp only [arrayFile?, hfind, ArrayFile.parse_encode ScalarType.readable_byte hshape haxes]
  rfl

theorem Storable.arrayFile?_byteMember (h : Storable m d)
    (hmem : byteMember key bytes ∈ membersOf m d) :
    (ofMembers (membersOf m d)).arrayFile? key =
      some { elementType := .scalar .byte, isColumnMajor := false, shape := [bytes.size]
             payload := bytes } := by
  have hsize : bytes.size ≤ sizeLimit := h.payload_le hmem
  have hfind := find?_ofMembers (nodup_membersOf m d) hmem
  refine arrayFile?_of_encode (fun n hn => ?_) (by simp) hfind
  rw [List.mem_singleton.mp hn]
  exact Nat.lt_of_le_of_lt hsize (by decide)

/-- Under either of the two keys bytes are saved. -/
theorem exists_byteMember (m : Metadata) (d : Data) (hkey : key ∈ byteKeys) :
    ∃ bytes, byteMember key bytes ∈ membersOf m d := by
  rcases List.mem_pair.mp hkey with rfl | rfl
  · exact ⟨_, List.mem_cons_self⟩
  · exact ⟨_, List.mem_cons_of_mem _ List.mem_cons_self⟩

section

variable (h : Storable m d) (hkey : key ∈ byteKeys) (hmem : byteMember key bytes ∈ membersOf m d)
  (hshape : ∀ n ∈ shape, n < 2 ^ 64) (haxes : shape.length ≤ 256)
  (hvolume : volume shape = bytes.size)

include h hkey hmem hshape haxes hvolume

theorem Storable.reshapes_withBytes :
    ((ofMembers (membersOf m d)).withBytes key shape bytes).Reshapes
      (ofMembers (membersOf m d)) where
  bytes other hother := by
    by_cases heq : other = key
    · subst heq
      refine ⟨_, shape, false, h.arrayFile?_byteMember hmem, ?_, ?_⟩
      · exact arrayFile?_of_encode hshape haxes (find?_withBytes_self _ _ _ _)
      · rw [hvolume]
        exact (Nat.mul_one _).symm
    · obtain ⟨kept, hkept⟩ := exists_byteMember m d hother
      have hfile := h.arrayFile?_byteMember hkept
      have hname := memberName_injective.ne heq
      refine ⟨_, [kept.size], false, hfile, ?_, rfl⟩
      rw [arrayFile?, find?_withBytes_of_ne hname, ← arrayFile?, hfile]
  tensors other := by
    refine find?_withBytes_of_ne (memberName_injective.ne fun heq => ?_)
    have hnot : ∀ other ∈ DataKey.all, other.name ∉ byteKeys := by decide +kernel
    exact hnot other other.mem_all (heq ▸ hkey)

/-- What was saved is loaded after its version or its record has been put in another shape. -/
theorem Storable.load_withBytes :
    ((ofMembers (membersOf m d)).withBytes key shape bytes).load =
      .ok ⟨m.withVersion currentVersion, d⟩ :=
  (h.reshapes_withBytes hkey hmem hshape haxes hvolume).load_eq_ok_iff.mpr (load_save h)

end

end Archive

namespace FileTree

/-- A fault of what an archive holds is reported as it is. -/
theorem read_of_load {error : FormatError} (hopen : tree.open? path = .ok contents)
    (harchive : contents.archive? = .ok archive) (hload : archive.load = .error (.format error)) :
    tree.read path = .error (.format error) := by
  rw [read, hopen, readOpened, Contents.load_of_archive harchive, hload]
  rfl

/-- The type of the elements of the version and the record is looked at, and their shape is not.
What is read is what the archive describes, with these two in arrays of bytes of any shape and
order: both have one axis exactly if the archive is as documented. An array with elements of
another type is reported for either of them; that of the record, if the version is one that is
read. In another archive, with the version and the record in other shapes and orders, the same
is read. -/
theorem read_in_any_shape (hopen : tree.open? path = .ok contents)
    (harchive : contents.archive? = .ok archive) :
    (∀ m, (∃ d, tree.read path = .ok ⟨m, d⟩) ↔
      ∃ version, archive.DescribesInAnyShape version m) ∧
    (∀ s, tree.read path = .ok s →
      (archive.IsOneDimensional ↔ ∃ version, archive.Describes version s.metadata)) ∧
    (∀ file, archive.arrayFile? HeaderKey.fileFormatVersion.name = some file →
      file.elementType ≠ .scalar .byte →
      tree.read path = .error (.format (.badElementType HeaderKey.fileFormatVersion.name "'|u1'"
        file.elementType.text))) ∧
    (∀ file, archive.arrayFile? headerMember = some file → file.elementType ≠ .scalar .byte →
      (∀ version, archive.loadVersion = .ok version →
        tree.read path =
          .error (.format (.badElementType headerMember "'|u1'" file.elementType.text))) ∧
      ∀ error, archive.loadVersion = .error (.format error) →
        tree.read path = .error (.format error)) ∧
    ∀ (tree' : FileTree) (contents' : Contents) (other : Archive),
      tree'.open? path = .ok contents' → contents'.archive? = .ok other →
      other.Reshapes archive → ∀ s, tree'.read path = .ok s ↔ tree.read path = .ok s := by
  refine ⟨fun m => ?_, fun s hread => ?_, fun file hfile htype => ?_,
    fun file hfile htype => ⟨fun version hversion => ?_, fun error hversion => ?_⟩,
    fun tree' contents' other hopen' harchive' hreshapes s => ?_⟩
  · simp only [read_eq_ok_iff_load hopen harchive]
    exact Archive.exists_load_iff_inAnyShape
  · exact Archive.isOneDimensional_iff ((read_eq_ok_iff_load hopen harchive).mp hread)
  · refine read_of_load hopen harchive (Archive.load_of_loadVersion ?_)
    rw [Archive.loadVersion, Archive.loadFile_of_elementType_ne hfile htype]
    rfl
  · refine read_of_load hopen harchive (Archive.load_of_loadHeader hversion ?_)
    rw [Archive.loadHeader, Archive.loadFile_of_elementType_ne hfile htype]
    rfl
  · exact read_of_load hopen harchive (Archive.load_of_loadVersion hversion)
  · rw [read_eq_ok_iff_load hopen harchive, read_eq_ok_iff_load hopen' harchive',
      hreshapes.load_eq_ok_iff]

/-! ## A record in a table -/

/-- The archive of the header of one channel and of zeros, with the record as a table of one row. -/
def oneRow : Archive :=
  (Archive.ofMembers (Archive.membersOf .single (zeros .single))).withBytes headerMember [1, 194]
    ⟨(Record.encode .single).toArray⟩

theorem load_oneRow : oneRow.load = .ok ⟨.single, zeros .single⟩ := by
  have hstorable : Archive.Storable .single (zeros .single) :=
    (open?_of_write write_single).1.withVersion _
  have hlength : (Record.encode .single).length = 194 := by decide +kernel
  exact hstorable.load_withBytes (List.mem_cons_of_mem _ List.mem_cons_self)
    (List.mem_cons_of_mem _ List.mem_cons_self) (by decide) (by decide) hlength.symm

theorem not_isOneDimensional_oneRow : ¬ oneRow.IsOneDimensional := by
  intro hone
  obtain ⟨file, hfile, -, hshape⟩ := hone headerMember (List.mem_cons_of_mem _ List.mem_cons_self)
  rw [oneRow, Archive.arrayFile?_of_encode (by decide) (by decide)
    (Archive.find?_withBytes_self _ _ _ _)] at hfile
  obtain rfl := Option.some.inj hfile
  exact absurd hshape (by decide)

theorem open?_oneRow :
    (empty.setFile ["zeros.npz"] (.archive oneRow)).open? "zeros.npz" = .ok (.archive oneRow) :=
  open?_setFile (by decide +kernel)

/-- The archive with the table describes what is read from it, but not as it is documented to. -/
theorem describes_oneRow :
    (∃ version, oneRow.DescribesInAnyShape version .single) ∧
      ¬ ∃ version, oneRow.Describes version .single := by
  obtain ⟨hdescribes, hone, -⟩ := read_in_any_shape open?_oneRow rfl
  have hread := (read_eq_ok_iff_load open?_oneRow rfl).mpr load_oneRow
  exact ⟨(hdescribes _).mp ⟨_, hread⟩,
    fun hdocumented => not_isOneDimensional_oneRow ((hone _ hread).mpr hdocumented)⟩

/-- Statistics are read although the array of the record has two axes. -/
theorem read_oneRow :
    (empty.setFile ["zeros.npz"] (.archive oneRow)).read "zeros.npz" =
        .ok ⟨.single, zeros .single⟩ ∧ ¬ oneRow.IsOneDimensional :=
  ⟨(read_eq_ok_iff_load open?_oneRow rfl).mpr load_oneRow, not_isOneDimensional_oneRow⟩

end FileTree

end VoltageStats
