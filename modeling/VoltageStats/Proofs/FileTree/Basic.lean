import VoltageStats.FileTree.Basic
import VoltageStats.Proofs.Checked

/-!
# Following paths in file trees

Whether a path leads somewhere depends on the directories of a tree and on the working directory
alone (`Within.locate`), and making the directories on a path lets it be followed from then on
(`makeDirectories_again`). A file that has been put somewhere is found there (`open?_setFile`).
-/

namespace VoltageStats.FileTree

variable {tree other : FileTree} {location next : Location} {segment path : String}

/-! ## Files -/

@[simp] theorem file?_setFile (tree : FileTree) (location : Location) (contents : Contents) :
    (tree.setFile location contents).file? location = some contents := by
  have hnone : List.lookup location (tree.files.filter (·.1 ≠ location)) = none := by
    rw [List.lookup_eq_none_iff]
    intro file hfile
    have hne := (List.mem_filter.mp hfile).2
    simpa [beq_eq_false_iff_ne, ne_comm] using hne
  rw [file?, setFile, List.lookup_append, hnone, Option.none_or, List.lookup_cons_self]

/-- Where there is no file removing it changes nothing. -/
theorem removeFile_of_none (hnone : tree.file? location = none) :
    tree.removeFile location = tree := by
  have hne : ∀ file ∈ tree.files, file.1 ≠ location := by
    intro file hfile heq
    have hlookup := List.lookup_eq_none_iff.mp hnone file hfile
    exact bne_iff_ne.mp hlookup heq.symm
  rw [removeFile, List.filter_eq_self.mpr fun file hfile => decide_eq_true (hne file hfile)]

@[simp] theorem removeFile_setFile (tree : FileTree) (location : Location) (contents : Contents) :
    (tree.setFile location contents).removeFile location = tree.removeFile location := by
  simp [removeFile, setFile, List.filter_append, List.filter_filter]

/-! ## Paths -/

theorem isDirectory_iff :
    tree.isDirectory location ↔
      location <+: tree.workingDirectory ∨ location ∈ tree.directories := by
  rw [FileTree.isDirectory, Bool.or_eq_true, List.isPrefixOf_iff_prefix, List.contains_iff_mem]

/-- The directories of one tree are all in another with the same working directory. -/
structure Within (tree other : FileTree) : Prop where
  workingDirectory_eq : tree.workingDirectory = other.workingDirectory
  subset : tree.directories ⊆ other.directories

theorem Within.refl (tree : FileTree) : tree.Within tree := ⟨rfl, List.Subset.refl _⟩

theorem Within.trans {middle : FileTree} (h : tree.Within middle) (h' : middle.Within other) :
    tree.Within other :=
  ⟨h.workingDirectory_eq.trans h'.workingDirectory_eq, List.Subset.trans h.subset h'.subset⟩

theorem Within.isDirectory (h : tree.Within other) (hdir : tree.isDirectory location) :
    other.isDirectory location := by
  rw [isDirectory_iff] at hdir ⊢
  rw [← h.workingDirectory_eq]
  exact hdir.imp_right fun hmem => h.subset hmem

theorem Within.start_eq (h : tree.Within other) (path : String) :
    tree.start path = other.start path := by
  rw [FileTree.start, FileTree.start, h.workingDirectory_eq]

/-- What a part of a path leads to. Of the tree only the directory that is entered matters. -/
theorem enter_eq_ok_iff :
    tree.enter location segment = .ok next ↔
      if segment = "" || segment = "." then location = next
      else if segment = ".." then location.dropLast = next
      else isPossibleName segment ∧ location ++ [segment] = next ∧
        tree.isDirectory (location ++ [segment]) := by
  unfold FileTree.enter
  split
  · simp
  · split
    · simp
    · by_cases hname : isPossibleName segment
      · by_cases hdir : tree.isDirectory (location ++ [segment])
        · simp [hname, hdir]
        · cases hfile : tree.file? (location ++ [segment]) <;> simp [hname, hdir, hfile]
      · simp [hname]

/-- What can be entered can be entered where there are more directories. -/
theorem Within.enter (h : tree.Within other) (henter : tree.enter location segment = .ok next) :
    other.enter location segment = .ok next := by
  rw [enter_eq_ok_iff] at henter ⊢
  split
  · simpa [*] using henter
  · split
    · simpa [*] using henter
    · obtain ⟨hname, rfl, hdir⟩ : isPossibleName segment ∧ location ++ [segment] = next ∧
        tree.isDirectory (location ++ [segment]) := by simpa [*] using henter
      exact ⟨hname, rfl, h.isDirectory hdir⟩

theorem Within.foldlM_enter (h : tree.Within other) {segments : List String}
    (hfold : segments.foldlM tree.enter location = .ok next) :
    segments.foldlM other.enter location = .ok next := by
  induction segments generalizing location with
  | nil => exact hfold
  | cons segment segments ih =>
      rw [List.foldlM_cons, except_bind_eq_ok_iff] at hfold ⊢
      obtain ⟨middle, hsegment, hrest⟩ := hfold
      exact ⟨middle, h.enter hsegment, ih hrest⟩

theorem Within.locate (h : tree.Within other) {target : Target}
    (hlocate : tree.locate path = .ok target) : other.locate path = .ok target := by
  simp only [FileTree.locate, except_refuse_eq_ok_iff, except_bind_eq_ok_iff] at hlocate ⊢
  obtain ⟨hempty, hpath, middle, hfold, hfinish⟩ := hlocate
  exact ⟨hempty, hpath, middle, h.foldlM_enter (h.start_eq path ▸ hfold), hfinish⟩

/-! ## Opening and placing -/

theorem place_eq_ok_iff :
    tree.place path = .ok location ↔
      tree.locate path = .ok (.name location) ∧ ¬ tree.isDirectory location := by
  rw [place, except_bind_eq_ok_iff]
  constructor
  · rintro ⟨target, hlocate, h⟩
    cases target with
    | directory _ => cases h
    | name found =>
        by_cases hdir : tree.isDirectory found
        · simp [hdir] at h
        · simp only [hdir, Bool.false_eq_true, if_false, except_pure_eq_ok_iff] at h
          obtain rfl := h
          exact ⟨hlocate, hdir⟩
  · rintro ⟨hlocate, hdir⟩
    exact ⟨.name location, hlocate, by simp [hdir]⟩

/-- Paths from the root and paths upwards lead out of the working directory. -/
example :
    let tree : FileTree := { empty with workingDirectory := ["home"], directories := [["tmp"]] }
    tree.place "/tmp/run.toml" = .ok ["tmp", "run.toml"] ∧
      tree.place "../tmp/run.toml" = .ok ["tmp", "run.toml"] ∧
      tree.place "run.toml" = .ok ["home", "run.toml"] := by
  decide +kernel

theorem open?_eq_ok_iff {contents : Contents} :
    tree.open? path = .ok contents ↔
      ∃ location, tree.place path = .ok location ∧ tree.file? location = some contents := by
  simp only [open?, place_eq_ok_iff, except_bind_eq_ok_iff]
  constructor
  · rintro ⟨target, hlocate, h⟩
    cases target with
    | directory _ => cases h
    | name location =>
        simp only [except_refuse_eq_ok_iff] at h
        obtain ⟨hdir, h⟩ := h
        cases hfile : tree.file? location with
        | none => simp [hfile] at h
        | some found =>
            simp only [hfile, except_pure_eq_ok_iff] at h
            exact ⟨location, ⟨hlocate, hdir⟩, by rw [hfile, h]⟩
  · rintro ⟨location, ⟨hlocate, hdir⟩, hfile⟩
    exact ⟨.name location, hlocate, by simp [hdir, hfile]⟩

/-- Where a file can be placed depends on the directories and the working directory alone. -/
theorem place_congr (hwork : tree.workingDirectory = other.workingDirectory)
    (h : tree.directories = other.directories) (hplace : tree.place path = .ok location) :
    other.place path = .ok location := by
  have hwithin : tree.Within other := ⟨hwork, fun _ hmem => h ▸ hmem⟩
  rw [place_eq_ok_iff] at hplace ⊢
  refine ⟨hwithin.locate hplace.1, ?_⟩
  have hdir := hplace.2
  rwa [isDirectory, hwork, h, ← isDirectory] at hdir

@[simp] theorem place_setFile_eq_ok_iff {place : Location} {contents : Contents} :
    (tree.setFile place contents).place path = .ok location ↔ tree.place path = .ok location :=
  ⟨place_congr rfl rfl, place_congr rfl rfl⟩

/-- A file that is put where a path leads to is opened by the path. -/
theorem open?_setFile {contents : Contents} (hplace : tree.place path = .ok location) :
    (tree.setFile location contents).open? path = .ok contents :=
  open?_eq_ok_iff.mpr ⟨location, place_setFile_eq_ok_iff.mpr hplace, file?_setFile _ _ _⟩

/-! ## Making directories -/

/-- A part of a path that is missing is a possible name of a directory that is not there. -/
theorem isPossibleName_of_missing (henter : tree.enter location segment = .error .missing) :
    ¬ (segment = "" || segment = ".") ∧ segment ≠ ".." ∧ isPossibleName segment := by
  unfold FileTree.enter at henter
  split at henter
  · cases henter
  · split at henter
    · cases henter
    · by_cases hname : isPossibleName segment
      · exact ⟨‹_›, ‹_›, hname⟩
      · simp [hname, throw, throwThe, MonadExceptOf.throw] at henter

/-- A directory that was made, or was there, can be entered. -/
theorem makeDirectory_spec {made : FileTree}
    (hmake : tree.makeDirectory location segment = (made, .ok next)) :
    tree.Within made ∧ made.files = tree.files ∧ made.enter location segment = .ok next := by
  unfold makeDirectory at hmake
  split at hmake
  next hmissing =>
    obtain ⟨rfl, hnext⟩ := Prod.mk.inj hmake
    obtain rfl := Except.ok.inj hnext
    refine ⟨⟨rfl, List.subset_append_left _ _⟩, rfl, ?_⟩
    obtain ⟨hhere, hparent, hname⟩ := isPossibleName_of_missing hmissing
    rw [enter_eq_ok_iff, if_neg hhere, if_neg hparent]
    refine ⟨hname, rfl, ?_⟩
    simp [FileTree.isDirectory]
  next henter =>
    obtain ⟨rfl, h⟩ := Prod.mk.inj hmake
    exact ⟨.refl tree, rfl, h⟩

/-- A directory that can be entered is not made. -/
theorem makeDirectory_of_enter (henter : tree.enter location segment = .ok next) :
    tree.makeDirectory location segment = (tree, .ok next) := by
  rw [makeDirectory, henter]

/-- Where directories have been made they need not be made again. -/
theorem makeDirectoriesFrom_spec {made : FileTree} {segments : List String}
    (hmake : tree.makeDirectoriesFrom location segments = (made, .ok next)) :
    tree.Within made ∧ made.files = tree.files ∧ ∀ other : FileTree, made.Within other →
      other.makeDirectoriesFrom location segments = (other, .ok next) := by
  -- Each directory is entered in the tree that was there when it was made, so the induction is
  -- over any tree to start from, and the directories made later are only more to enter.
  induction segments generalizing tree location with
  | nil =>
      obtain ⟨rfl, h⟩ := Prod.mk.inj hmake
      exact ⟨.refl tree, rfl, fun other _ => by rw [makeDirectoriesFrom, h]⟩
  | cons segment segments ih =>
      rw [makeDirectoriesFrom] at hmake
      split at hmake
      next middle entered hfirst =>
        obtain ⟨hwithin, hfiles, henter⟩ := makeDirectory_spec hfirst
        obtain ⟨hrest, hfilesRest, hagain⟩ := ih hmake
        refine ⟨hwithin.trans hrest, hfilesRest.trans hfiles, ?_⟩
        intro other hother
        have hmiddle : middle.Within other := hrest.trans hother
        rw [makeDirectoriesFrom, makeDirectory_of_enter (hmiddle.enter henter)]
        exact hagain other hother
      · cases hmake

/-- Once the directories on a path are there, making them succeeds and changes nothing. -/
theorem makeDirectories_again {made : FileTree}
    (hmake : tree.makeDirectories path = (made, .ok location)) (hwithin : made.Within other) :
    other.makeDirectories path = (other, .ok location) := by
  unfold makeDirectories at hmake ⊢
  split at hmake
  · cases hmake
  next hpath =>
    obtain ⟨hmade, -, hagain⟩ := makeDirectoriesFrom_spec hmake
    rw [if_neg hpath, ← (hmade.trans hwithin).start_eq]
    exact hagain other hwithin

/-- Making directories leaves every file as it is. -/
theorem makeDirectories_frame {made : FileTree}
    (hmake : tree.makeDirectories path = (made, .ok location)) :
    tree.Within made ∧ made.files = tree.files := by
  unfold makeDirectories at hmake
  split at hmake
  · cases hmake
  · have hspec := makeDirectoriesFrom_spec hmake
    exact ⟨hspec.1, hspec.2.1⟩

end VoltageStats.FileTree
