import VoltageStats.Proofs.Archive.Contents
import VoltageStats.Proofs.FileTree.RoundTrip

/-!
# Reading what a file holds

Reading a file that can be opened and taken apart comes to loading its archive
(`read_eq_ok_iff_load`), so what is read is exactly what the archive holds, and no other member of
it has a say (`read_exact`).
-/

namespace VoltageStats

open Archive (HasOneAxis Describes memberNames Storable membersOf)

variable {tree : FileTree} {path : String} {contents : Contents} {archive : Archive}
  {m : Metadata} {d : Data} {s : Statistics}

/-- The version and the record of an archive that was saved have one axis each. -/
theorem Archive.Storable.hasOneAxis (h : Storable m d) :
    (ofMembers (membersOf m d)).HasOneAxis HeaderKey.fileFormatVersion.name ∧
      (ofMembers (membersOf m d)).HasOneAxis headerMember :=
  ⟨hasOneAxis_of_loadFile (h.loadFile_byteMember List.mem_cons_self) rfl,
    hasOneAxis_of_loadFile
      (h.loadFile_byteMember (List.mem_cons_of_mem _ List.mem_cons_self)) rfl⟩

/-- To load what a file holds is to load its archive. -/
theorem Contents.load_of_archive (harchive : contents.archive? = .ok archive) :
    contents.load = archive.load := by
  rw [Contents.load, harchive]
  rfl

namespace FileTree

theorem read_eq_ok_iff_load (hopen : tree.open? path = .ok contents)
    (harchive : contents.archive? = .ok archive) :
    tree.read path = .ok s ↔ archive.load = .ok s := by
  rw [read, hopen, readOpened, except_mapError_eq_ok_iff, Contents.load_of_archive harchive]

/-- What is read is what the archive holds, or nothing. Statistics are read under a header exactly
if the archive describes them: it holds a version that is read, a record of the header, which is
consistent, and for each key an array with the elements and the shape that belong to it. Then each
array is the one under its own key, header and arrays fit together, and the check that comes last
never refuses what has passed the others. Whatever is done to members of other names, the outcome
stays as it is. -/
theorem read_exact (hopen : tree.open? path = .ok contents)
    (harchive : contents.archive? = .ok archive)
    (hversion : archive.HasOneAxis HeaderKey.fileFormatVersion.name)
    (hheader : archive.HasOneAxis headerMember) :
    (∀ m, (∃ d, tree.read path = .ok ⟨m, d⟩) ↔ ∃ version, archive.Describes version m) ∧
    (∀ s, tree.read path = .ok s →
      (∀ key, archive.HoldsTensor key (s.data.get key)) ∧
      s.metadata.validate = .ok () ∧ s.data.validate s.metadata = .ok ()) ∧
    (∀ version m d, archive.loadHeader version = .ok m →
      StatArrays.ofFnM (archive.loadTensor m) = .ok d → Statistics.ofParts m d = .ok ⟨m, d⟩) ∧
    (∀ (tree' : FileTree) (contents' : Contents) (other : Archive),
      tree'.open? path = .ok contents' → contents'.archive? = .ok other →
      other.entries.filter (fun entry => entry.1 ∈ memberNames) =
        archive.entries.filter (fun entry => entry.1 ∈ memberNames) →
      tree'.read path = tree.read path) := by
  refine ⟨fun m => ?_, fun s hread => ?_, fun version m d hm hd => Archive.ofParts_of_load hm hd,
    fun tree' contents' other hopen' harchive' hentries => ?_⟩
  · simp only [read_eq_ok_iff_load hopen harchive]
    exact Archive.exists_load_iff hversion hheader
  · have hload := (read_eq_ok_iff_load hopen harchive).mp hread
    obtain ⟨version, -, hm, htensors⟩ := Archive.load_eq_ok_iff.mp hload
    obtain ⟨-, hvalid⟩ := (Archive.loadHeader_eq_ok_iff hheader).mp hm
    have htensor := fun key => Archive.holdsTensor_of_loadTensor (htensors key)
    refine ⟨fun key => (htensor key).2, hvalid, ?_⟩
    exact StatArrays.validate_eq_ok_iff.mpr fun key => (htensor key).1
  · have hload : other.load = archive.load :=
      Archive.load_congr fun name hname => Archive.find?_eq_of_filter hentries hname
    rw [read, read, hopen, hopen', readOpened, readOpened, Contents.load_of_archive harchive,
      Contents.load_of_archive harchive', hload]

theorem write_single :
    empty.write "one/zeros.npz" { Metadata.single with fileFormatVersion := legacyVersion }
      (zeros .single) = (single.1, .ok ()) := by
  have hok : single.2 = .ok () := except_isOk_iff.mp (by decide +kernel)
  show single = (single.1, .ok ())
  rw [← hok]

/-- What has been written is described by its archive and read from it, also if the container has
another member that it cannot give back. -/
theorem read_exact_single :
    ∃ archive location,
      single.1.open? "one/zeros.npz" = .ok (.archive archive) ∧
      archive.HasOneAxis HeaderKey.fileFormatVersion.name ∧ archive.HasOneAxis headerMember ∧
      (∃ version, archive.Describes version .single) ∧
      (∀ key, archive.HoldsTensor key ((zeros .single).get key)) ∧
      (single.1.setFile location (.archive
        ⟨archive.entries ++ [("notes.txt", .error .malformed)]⟩)).read "one/zeros.npz" =
          .ok ⟨.single, zeros .single⟩ := by
  obtain ⟨hstorable, hopen⟩ := open?_of_write write_single
  obtain ⟨hversion, hheader⟩ := hstorable.hasOneAxis
  obtain ⟨hdescribes, hheld, -, hother⟩ := read_exact hopen rfl hversion hheader
  have hread : single.1.read "one/zeros.npz" = .ok ⟨.single, zeros .single⟩ :=
    (read_eq_ok_iff_load hopen rfl).mpr (Archive.load_save hstorable)
  obtain ⟨location, hplace, -⟩ := open?_eq_ok_iff.mp hopen
  have hname : "notes.txt" ∉ memberNames := by decide +kernel
  refine ⟨_, location, hopen, hversion, hheader, (hdescribes _).mp ⟨_, hread⟩,
    (hheld _ hread).1, ?_⟩
  refine (hother _ _ _ (open?_setFile hplace) rfl ?_).trans hread
  simp [List.filter_append, hname]

end FileTree

end VoltageStats
