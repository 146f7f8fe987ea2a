import VoltageStats.FileTree.Statistics
import VoltageStats.Proofs.Archive.RoundTrip
import VoltageStats.Proofs.FileTree.Basic

/-!
# Written files are read

Writing succeeds exactly when the statistics pass every check, the directories on the path can be
made and the path leads to a place for a file; it then makes the directories and puts the archive
in its place, and does nothing else to the tree (`write_eq_ok_iff`). For each phase of writing
there is one lemma on what is left to happen, from the last phase to the first. What has been
written is read, and can be written again (`FileTree.read_write`).
-/

namespace VoltageStats

open Archive (Storable membersOf)
open FileTree (file?_setFile removeFile_of_none)

variable {tree tree' : FileTree} {w : Writing} {steps : Nat}

namespace Writing

/-- A run takes one step after the other; at the end of writing a step does nothing. -/
theorem run_succ (w : Writing) (steps : Nat) (tree : FileTree) (phase : Phase) :
    w.run (steps + 1) tree phase =
      w.run steps (w.step false tree phase).1 (w.step false tree phase).2 := by
  cases phase with
  | ended result => cases steps <;> rfl
  | _ => rfl

theorem run_ended (w : Writing) (steps : Nat) (tree : FileTree)
    (result : Except WriteError Unit) : w.run steps tree (.ended result) = (tree, result) := by
  cases steps <;> rfl

@[simp] theorem run_failed_ne_ok : w.run steps tree failed ≠ (tree', .ok ()) := by
  rw [failed, run_ended]
  rintro ⟨⟩

/-- Of a complete file it is left to move it to where the path leads. -/
theorem run_complete_eq_ok_iff {temporary : Location} {contents : Contents}
    (hfile : tree.file? temporary = some contents) :
    w.run (steps + 1) tree (.complete temporary) = (tree', .ok ()) ↔
      ∃ location, tree.place w.path = .ok location ∧
        (tree.removeFile temporary).setFile location contents = tree' := by
  cases hplace : tree.place w.path with
  | error fault =>
      have hstep : w.step false tree (.complete temporary) =
          (tree.removeFile temporary, failed) := by
        unfold step
        simp [hplace]
      simp [run_succ, hstep]
  | ok location =>
      have hstep : w.step false tree (.complete temporary) =
          ((tree.removeFile temporary).setFile location contents, .ended (.ok ())) := by
        unfold step
        simp [hplace, hfile]
      simp [run_succ, hstep, run_ended]

/-- Of a file that is being filled it is left to append the remaining members, each of which has
to be small enough. -/
theorem run_filling_eq_ok_iff {temporary : Location} {done rest : List (String × ByteArray)} :
    w.run (rest.length + (steps + 2)) tree (.filling temporary done rest) = (tree', .ok ()) ↔
      (∀ member ∈ rest, member.2.size ≤ Archive.sizeLimit) ∧
        ∃ location, tree.place w.path = .ok location ∧
          (tree.removeFile temporary).setFile location (.archive (.ofMembers (done ++ rest))) =
            tree' := by
  induction rest generalizing done with
  | nil =>
      have hstep : w.step false tree (.filling temporary done []) =
          (tree.setFile temporary (.archive (.ofMembers done)), .complete temporary) := rfl
      rw [List.length_nil, Nat.zero_add, run_succ, hstep,
        run_complete_eq_ok_iff (file?_setFile _ _ _)]
      simp
  | cons member rest ih =>
      rw [List.length_cons, Nat.add_right_comm, run_succ]
      by_cases hsize : Archive.sizeLimit < member.2.size
      · have hstep : w.step false tree (.filling temporary done (member :: rest)) =
            (tree.removeFile temporary, failed) := by
          unfold step
          simp [hsize]
        simp [hstep, Nat.not_le_of_lt hsize]
      · have hstep : w.step false tree (.filling temporary done (member :: rest)) =
            (tree, .filling temporary (done ++ [member]) rest) := by
          unfold step
          simp [hsize]
        rw [hstep, ih]
        simp [Nat.le_of_not_lt hsize]

/-- In a directory that is there it is left to make the temporary file and to fill it. -/
theorem run_prepared_eq_ok_iff {location : Location} {members : List (String × ByteArray)}
    (hfresh : tree.file? (location ++ [w.temporary]) = none) :
    w.run (members.length + (steps + 3)) tree (.prepared location members) = (tree', .ok ()) ↔
      tree.isDirectory (location ++ [w.temporary]) = false ∧
        (∀ member ∈ members, member.2.size ≤ Archive.sizeLimit) ∧
        ∃ target, tree.place w.path = .ok target ∧
          tree.setFile target (.archive (.ofMembers members)) = tree' := by
  rw [← Nat.add_assoc, run_succ]
  by_cases hdir : tree.isDirectory (location ++ [w.temporary])
  · have hstep : w.step false tree (.prepared location members) = (tree, failed) := by
      unfold step
      simp [hdir]
    simp [hstep, hdir]
  · have hstep : w.step false tree (.prepared location members) =
        (tree.setFile (location ++ [w.temporary]) .unfinished,
          .filling (location ++ [w.temporary]) [] members) := by
      unfold step
      simp [hdir, hfresh]
    rw [hstep, Nat.add_assoc, run_filling_eq_ok_iff]
    simp [hdir, removeFile_of_none hfresh]

/-- After the checks it is left to make the directories and to go on from there. -/
theorem run_checked_eq_ok_iff {members : List (String × ByteArray)}
    (hunused : ∀ location, tree.file? (location ++ [w.temporary]) = none) :
    w.run (members.length + (steps + 4)) tree (.checked members) = (tree', .ok ()) ↔
      (∀ member ∈ members, member.2.size ≤ Archive.sizeLimit) ∧
        ∃ made directory target,
          tree.makeDirectories (Path.directory w.path) = (made, .ok directory) ∧
          made.isDirectory (directory ++ [w.temporary]) = false ∧
          made.place w.path = .ok target ∧
          made.setFile target (.archive (.ofMembers members)) = tree' := by
  rw [← Nat.add_assoc, run_succ]
  cases hmake : tree.makeDirectories (Path.directory w.path) with
  | mk made reached =>
      cases reached with
      | error fault =>
          have hstep : w.step false tree (.checked members) = (made, failed) := by
            unfold step
            rw [hmake]
          simp [hstep]
      | ok directory =>
          have hstep : w.step false tree (.checked members) =
              (made, .prepared directory members) := by
            unfold step
            simp [hmake]
          have hfresh : made.file? (directory ++ [w.temporary]) = none := by
            rw [FileTree.file?, (FileTree.makeDirectories_frame hmake).2]
            exact hunused directory
          rw [hstep, Nat.add_assoc, run_prepared_eq_ok_iff hfresh]
          constructor
          · rintro ⟨hdir, hsizes, target, hplace, hset⟩
            exact ⟨hsizes, made, directory, target, rfl, hdir, hplace, hset⟩
          · rintro ⟨hsizes, _, _, target, hmade, hdir, hplace, hset⟩
            obtain ⟨rfl, hreached⟩ := Prod.mk.inj hmade
            obtain rfl := Except.ok.inj hreached
            exact ⟨hdir, hsizes, target, hplace, hset⟩

/-- Statistics that do not pass the checks are not written. The size of the members is not looked
at before they are appended. -/
theorem run_unchecked_eq_ok_iff :
    w.run (steps + 1) tree .unchecked = (tree', .ok ()) ↔
      w.metadata.validate = .ok () ∧ w.data.validate w.metadata = .ok () ∧
        w.run steps tree (.checked (membersOf w.metadata w.data)) = (tree', .ok ()) := by
  have hfault : ∀ error, Archive.save w.metadata w.data = .error (.inconsistent error) →
      w.step false tree .unchecked = (tree, .ended (.error (.inconsistent error))) := by
    intro error hsave
    unfold step
    rw [hsave]
  rw [run_succ]
  cases hm : w.metadata.validate with
  | error error =>
      have hsave : Archive.save w.metadata w.data = .error (.inconsistent error) := by
        rw [Archive.save, hm]
        rfl
      simp [hfault error hsave, run_ended]
  | ok _ =>
      cases hd : w.data.validate w.metadata with
      | error error =>
          have hsave : Archive.save w.metadata w.data = .error (.inconsistent error) := by
            rw [Archive.save, hm, hd]
            rfl
          simp [hfault error hsave, run_ended]
      | ok _ =>
          -- Whether a member is oversized makes no difference to this step.
          have hstep : w.step false tree .unchecked =
              (tree, .checked (membersOf w.metadata w.data)) := by
            unfold step
            rw [Archive.save_of_validate hm hd]
            generalize List.any _ _ = isOversized
            cases isOversized with
            | true => rfl
            | false => simp [Archive.members_ofMembers]
          simp [hstep]

end Writing

theorem Contents.load_archive (archive : Archive) :
    (Contents.archive archive).load = archive.load := rfl

namespace FileTree

variable {path : String} {m : Metadata} {d : Data}

theorem le_foldl_length (names : List String) (n : Nat) :
    n ≤ names.foldl (fun n name => max n name.length) n ∧
      ∀ name ∈ names, name.length ≤ names.foldl (fun n name => max n name.length) n := by
  induction names generalizing n with
  | nil => simp
  | cons first names ih =>
      obtain ⟨hstart, hnames⟩ := ih (max n first.length)
      rw [List.foldl_cons, List.forall_mem_cons]
      exact ⟨by omega, by omega, hnames⟩

/-- The name for a temporary file is longer than every name in the tree. -/
theorem length_lt_unusedName {name : String}
    (hname : name ∈ tree.workingDirectory ++ tree.directories.flatten ++
      tree.files.flatMap (·.1)) :
    name.length < tree.unusedName.length := by
  have hle := (le_foldl_length _ 0).2 name hname
  have hprefix : ".tmp".length = 4 := by decide
  rw [unusedName, String.length_append, hprefix, String.length_ofList, List.length_replicate]
  omega

theorem file?_unusedName (tree : FileTree) (location : Location) :
    tree.file? (location ++ [tree.unusedName]) = none := by
  rw [file?, List.lookup_eq_none_iff]
  intro file hfile
  rw [bne_iff_ne]
  intro heq
  have hname : tree.unusedName ∈ tree.files.flatMap (·.1) :=
    List.mem_flatMap.mpr ⟨file, hfile, by simp [← heq]⟩
  exact Nat.lt_irrefl _ (length_lt_unusedName (List.mem_append_right _ hname))

theorem isDirectory_unusedName (tree : FileTree) (location : Location) :
    tree.isDirectory (location ++ [tree.unusedName]) = false := by
  rw [Bool.eq_false_iff]
  intro hdir
  have hlast : tree.unusedName ∈ location ++ [tree.unusedName] := by simp
  have hname : tree.unusedName ∈ tree.workingDirectory ++ tree.directories.flatten := by
    rw [List.mem_append]
    exact (isDirectory_iff.mp hdir).imp (fun hprefix => hprefix.subset hlast)
      fun hmem => List.mem_flatten.mpr ⟨_, hmem, hlast⟩
  exact Nat.lt_irrefl _ (length_lt_unusedName (List.mem_append_left _ hname))

/-- What it takes to write statistics to a file, and what is in the tree afterwards. -/
theorem write_eq_ok_iff :
    tree.write path m d = (tree', .ok ()) ↔
      Storable m d ∧ ∃ made directory target,
        tree.makeDirectories (Path.directory path) = (made, .ok directory) ∧
        made.isDirectory (directory ++ [tree.unusedName]) = false ∧
        made.place path = .ok target ∧
        made.setFile target (.archive (.ofMembers (membersOf m d))) = tree' := by
  have hsteps : Writing.stepCount = (membersOf m d).length + (3 + 4) + 1 := rfl
  -- There is a step for each phase before the members are appended and after it, and some to spare.
  rw [write, hsteps, Writing.run_unchecked_eq_ok_iff,
    Writing.run_checked_eq_ok_iff (file?_unusedName tree), Archive.storable_iff]
  simp only [and_assoc]

/-- Statistics that were written to a file can be written there once more. The directories are
there by then, and nothing but the file changes. -/
theorem write_again (hwrite : tree.write path m d = (tree', .ok ())) {m' : Metadata} {d' : Data}
    (hstorable : Storable m' d') : ∃ tree'', tree'.write path m' d' = (tree'', .ok ()) := by
  obtain ⟨-, made, directory, target, hmake, -, hplace, rfl⟩ := write_eq_ok_iff.mp hwrite
  exact ⟨_, write_eq_ok_iff.mpr ⟨hstorable, _, directory, target,
    makeDirectories_again hmake ⟨rfl, List.Subset.refl _⟩, isDirectory_unusedName _ _,
    place_setFile_eq_ok_iff.mpr hplace, rfl⟩⟩

/-- After a write its path leads to the archive of what was written. -/
theorem open?_of_write (hwrite : tree.write path m d = (tree', .ok ())) :
    Storable m d ∧ tree'.open? path = .ok (.archive (.ofMembers (membersOf m d))) := by
  obtain ⟨hstorable, made, _, target, -, -, hplace, rfl⟩ := write_eq_ok_iff.mp hwrite
  exact ⟨hstorable, open?_setFile hplace⟩

theorem read_of_write (hwrite : tree.write path m d = (tree', .ok ())) :
    tree'.read path = .ok ⟨{ m with fileFormatVersion := currentVersion }, d⟩ := by
  obtain ⟨hstorable, hopen⟩ := open?_of_write hwrite
  rw [read, hopen, readOpened, Contents.load_archive, Archive.load_save hstorable]
  rfl

/-- Statistics that were written are read as they were, but that the header names the current
format version. Writing what was read succeeds, and there or anywhere else it makes a file of the
same 22 members. -/
theorem read_write (hwrite : tree.write path m d = (tree', .ok ())) :
    tree'.read path = .ok ⟨{ m with fileFormatVersion := currentVersion }, d⟩ ∧
      (∃ again, tree'.write path { m with fileFormatVersion := currentVersion } d =
        (again, .ok ())) ∧
      ∃ members : List (String × ByteArray), members.length = 22 ∧
        tree'.open? path = .ok (.archive (.ofMembers members)) ∧
        ∀ (other other' : FileTree) (path' : String),
          other.write path' { m with fileFormatVersion := currentVersion } d =
              (other', .ok ()) →
            other'.open? path' = .ok (.archive (.ofMembers members)) := by
  obtain ⟨hstorable, hopen⟩ := open?_of_write hwrite
  refine ⟨read_of_write hwrite, write_again hwrite (hstorable.withVersion _), membersOf m d,
    Archive.length_membersOf m d, hopen, fun other other' path' hagain => ?_⟩
  rw [← Archive.membersOf_withVersion m d currentVersion]
  exact (open?_of_write hagain).2

/-- Arrays of zeros, in the shapes that belong to a header. -/
def zeros (m : Metadata) : Data :=
  .ofFn fun key =>
    match key.kind with
    | .real => .ofFn (m.expectedShape key) fun _ => ⟨0⟩
    | .count => .ofFn (m.expectedShape key) fun _ => 0

/-- An empty tree in which zeros have been written to a file, under a legacy header. -/
def single : FileTree × Except WriteError Unit :=
  empty.write "one/zeros.npz" { Metadata.single with fileFormatVersion := legacyVersion }
    (zeros .single)

theorem read_single :
    single.2 = .ok () ∧ single.1.read "one/zeros.npz" = .ok ⟨.single, zeros .single⟩ := by
  have hok : single.2 = .ok () := except_isOk_iff.mp (by decide +kernel)
  have hwrite : single = (single.1, .ok ()) := by rw [← hok]
  exact ⟨hok, (read_write hwrite).1⟩

end FileTree

end VoltageStats
