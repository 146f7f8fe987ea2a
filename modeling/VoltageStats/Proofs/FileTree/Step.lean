import VoltageStats.FileTree.Traffic
import VoltageStats.Proofs.FileTree.RoundTrip
import VoltageStats.Proofs.Path

/-!
# What one step of writing does

A step of writing is one of a few kinds (`Writing.Step`, `Writing.step_spec`). Of the files it
changes at most the temporary file of the write and, in the step that moves it, the file at the
destination (`Step.file?_eq`). Throughout, what is known of a phase holds of the tree: the temporary
file is there, its members are those of the statistics, and when it is complete it is their archive
(`Sound`, `Step.sound`).
-/

namespace VoltageStats

open Archive (Storable membersOf)

namespace FileTree

variable {tree made other : FileTree} {location next : Location} {segment path : String}

/-! ## Places -/

theorem descend_of_enter (henter : tree.enter location segment = .ok next) :
    location.descend segment = next := by
  rw [enter_eq_ok_iff] at henter
  unfold Location.descend
  split at henter
  · rw [if_pos ‹_›, henter]
  · rw [if_neg ‹_›]
    split at henter
    · rw [if_pos ‹_›, henter]
    · rw [if_neg ‹_›, henter.2.1]

theorem foldl_descend_of_foldlM {segments : List String}
    (hfold : segments.foldlM tree.enter location = .ok next) :
    segments.foldl Location.descend location = next := by
  induction segments generalizing location with
  | nil => exact Except.ok.inj hfold
  | cons segment segments ih =>
      rw [List.foldlM_cons, except_bind_eq_ok_iff] at hfold
      obtain ⟨middle, hsegment, hrest⟩ := hfold
      rw [List.foldl_cons, descend_of_enter hsegment]
      exact ih hrest

/-- A path is followed by its components: empty parts and single dots lead nowhere. -/
theorem foldl_descend_components (location : Location) (path : String) :
    (Path.components path).foldl Location.descend location =
      (Path.segments path).foldl Location.descend location := by
  rw [Path.components]
  induction Path.segments path generalizing location with
  | nil => rfl
  | cons segment segments ih =>
      by_cases hhere : segment = "" || segment = "."
      · obtain rfl | rfl : segment = "" ∨ segment = "." := by simpa using hhere
        · exact ih location
        · exact ih location
      · rw [List.filter_cons_of_pos (by simpa using hhere), List.foldl_cons, List.foldl_cons, ih]

/-- The location that a path names has the file name of the path. -/
theorem getLast?_locationOf {name : String} (tree : FileTree)
    (hname : Path.fileName? path = some name) :
    (tree.locationOf path).getLast? = some name := by
  obtain ⟨-, hempty, hdot, hdots⟩ := Path.isFileName_of_fileName? hname
  obtain ⟨front, hcomponents⟩ :=
    List.getLast?_eq_some_iff.mp (Path.fileName?_eq_some_iff.mp hname).1
  rw [locationOf, ← foldl_descend_components, hcomponents, List.foldl_append, List.foldl_cons,
    List.foldl_nil, Location.descend, if_neg (by simp [hempty, hdot]), if_neg hdots,
    List.getLast?_concat]

theorem locationOf_congr (h : tree.workingDirectory = other.workingDirectory) (path : String) :
    tree.locationOf path = other.locationOf path := by
  rw [locationOf, locationOf, start, start, h]

/-- Where a path leads to a name, the name is its last part. -/
theorem finish_eq_name_iff :
    finish location segment = .ok (.name next) ↔
      ¬ (segment = "" || segment = ".") ∧ segment ≠ ".." ∧ isPossibleName segment ∧
        location ++ [segment] = next := by
  unfold finish
  split
  · simp [*]
  · split
    · simp [*]
    · by_cases hname : isPossibleName segment <;> simp [*]

/-- A path leads to the location that it names, and it ends in the name of a file, if it leads to a
place for a file. -/
theorem place_spec (hplace : tree.place path = .ok location) :
    tree.locationOf path = location ∧ ∃ name, Path.fileName? path = some name := by
  obtain ⟨hlocate, -⟩ := place_eq_ok_iff.mp hplace
  simp only [locate, except_refuse_eq_ok_iff, except_bind_eq_ok_iff] at hlocate
  obtain ⟨-, -, directory, hfold, hfinish⟩ := hlocate
  obtain ⟨hhere, hparent, -, rfl⟩ := finish_eq_name_iff.mp hfinish
  obtain ⟨front, hsegments⟩ : ∃ front, Path.segments path =
      front ++ [(Path.segments path).getLast?.getD ""] := by
    cases hlast : (Path.segments path).getLast? with
    | none => simp [hlast] at hhere
    | some last => exact List.getLast?_eq_some_iff.mp hlast
  generalize (Path.segments path).getLast?.getD "" = last at *
  rw [hsegments, List.dropLast_concat] at hfold
  refine ⟨?_, last, ?_⟩
  · rw [locationOf, hsegments, List.foldl_append, foldl_descend_of_foldlM hfold, List.foldl_cons,
      List.foldl_nil, Location.descend, if_neg hhere, if_neg hparent]
  · have hkept : last ≠ "" ∧ last ≠ "." := by simpa using hhere
    refine Path.fileName?_eq_some_iff.mpr ⟨?_, hparent⟩
    simp [Path.components, hsegments, hkept]

theorem held?_of_place (hplace : tree.place path = .ok location) :
    tree.held? path = tree.file? location := by
  obtain ⟨rfl, name, hname⟩ := place_spec hplace
  rw [held?, hname]
  rfl

/-- What a path opens is the file that it names. -/
theorem held?_of_open? {contents : Contents} (hopen : tree.open? path = .ok contents) :
    tree.held? path = some contents := by
  obtain ⟨location, hplace, hfile⟩ := open?_eq_ok_iff.mp hopen
  rw [held?_of_place hplace, hfile]

/-- A path that leads to a place for a file opens what it names. -/
theorem open?_of_held? {contents : Contents} (hplace : tree.place path = .ok location)
    (hheld : tree.held? path = some contents) : tree.open? path = .ok contents :=
  open?_eq_ok_iff.mpr ⟨location, hplace, held?_of_place hplace ▸ hheld⟩

/-! ## Files -/

theorem lookup_filter_of_ne {files : List (Location × Contents)} {other : Location}
    (hne : other ≠ location) :
    (files.filter (·.1 ≠ location)).lookup other = files.lookup other := by
  induction files with
  | nil => rfl
  | cons file files ih =>
      obtain ⟨name, contents⟩ := file
      by_cases hname : name = location
      · have hother : (other == name) = false := by
          rw [beq_eq_false_iff_ne, hname]
          exact hne
        rw [List.filter_cons_of_neg (by simp [hname]), ih, List.lookup_cons, hother]
      · rw [List.filter_cons_of_pos (by simp [hname]), List.lookup_cons, List.lookup_cons, ih]

theorem file?_removeFile_of_ne {other : Location} (hne : other ≠ location) :
    (tree.removeFile location).file? other = tree.file? other :=
  lookup_filter_of_ne hne

theorem file?_setFile_of_ne {other : Location} {contents : Contents} (hne : other ≠ location) :
    (tree.setFile location contents).file? other = tree.file? other := by
  have hlast : List.lookup other [(location, contents)] = none := by
    rw [List.lookup_cons, beq_eq_false_iff_ne.mpr hne]
    rfl
  rw [file?, setFile, List.lookup_append, hlast, Option.or_none, lookup_filter_of_ne hne]
  rfl

/-! ## Directories -/

/-- One tree comes from another by making directories where there are no files. -/
structure Extends (made tree : FileTree) : Prop where
  files_eq : made.files = tree.files
  within : tree.Within made
  isDirectory : ∀ location, (tree.file? location).isSome → made.isDirectory location →
    tree.isDirectory location

theorem Extends.refl (tree : FileTree) : tree.Extends tree :=
  ⟨rfl, .refl tree, fun _ _ hdir => hdir⟩

theorem Extends.file?_eq (h : made.Extends tree) (location : Location) :
    made.file? location = tree.file? location := by
  rw [file?, h.files_eq, file?]

theorem Extends.trans {middle : FileTree} (h : made.Extends middle) (h' : middle.Extends tree) :
    made.Extends tree := by
  refine ⟨h.files_eq.trans h'.files_eq, h'.within.trans h.within, fun location hfile hdir => ?_⟩
  exact h'.isDirectory location hfile (h.isDirectory location (h'.file?_eq location ▸ hfile) hdir)

/-- Where a part of a path is missing there is no file. -/
theorem file?_of_missing (henter : tree.enter location segment = .error .missing) :
    tree.file? (location ++ [segment]) = none := by
  obtain ⟨hhere, hparent, hname⟩ := isPossibleName_of_missing henter
  rw [enter, if_neg hhere, if_neg hparent, if_neg (by simp [hname])] at henter
  dsimp only at henter
  split at henter
  · cases henter
  · split at henter
    · cases henter
    next hfile => simpa using hfile

theorem extends_makeDirectory (tree : FileTree) (location : Location) (segment : String) :
    (tree.makeDirectory location segment).1.Extends tree := by
  unfold makeDirectory
  split
  next hmissing =>
    refine ⟨rfl, ⟨rfl, List.subset_append_left _ _⟩, fun found hfile hdir => ?_⟩
    rw [isDirectory_iff, List.mem_append, List.mem_singleton] at hdir
    rw [isDirectory_iff]
    rcases hdir with hwork | hmem | hmade
    · exact .inl hwork
    · exact .inr hmem
    · rw [hmade, file?_of_missing hmissing] at hfile
      cases hfile
  · exact .refl tree

theorem extends_makeDirectoriesFrom (tree : FileTree) (location : Location)
    (segments : List String) : (tree.makeDirectoriesFrom location segments).1.Extends tree := by
  induction segments generalizing tree location with
  | nil => exact .refl tree
  | cons segment segments ih =>
      have hfirst := extends_makeDirectory tree location segment
      rw [makeDirectoriesFrom]
      split
      next middle next hmake =>
        rw [hmake] at hfirst
        exact (ih middle next).trans hfirst
      next middle fault hmake =>
        rw [hmake] at hfirst
        exact hfirst

/-- Making directories changes no file and makes none where there is a file, also if it fails. -/
theorem extends_makeDirectories (tree : FileTree) (path : String) :
    (tree.makeDirectories path).1.Extends tree := by
  unfold makeDirectories
  split
  · exact .refl tree
  · exact extends_makeDirectoriesFrom tree _ _

theorem Extends.place (h : made.Extends tree) (hfile : (tree.file? location).isSome)
    (hplace : tree.place path = .ok location) : made.place path = .ok location := by
  rw [place_eq_ok_iff] at hplace ⊢
  exact ⟨h.within.locate hplace.1, fun hdir => hplace.2 (h.isDirectory location hfile hdir)⟩

end FileTree

namespace Writing

variable {w : Writing} {tree tree' : FileTree} {phase phase' : Phase} {location : Location}

/-! ## Steps -/

/-- The header and the arrays fit together. -/
def Valid (w : Writing) : Prop := w.metadata.validate = .ok () ∧ w.data.validate w.metadata = .ok ()

/-- The temporary file that belongs to a phase. -/
def Phase.temporary? : Phase → Option Location
  | .filling temporary _ _ => some temporary
  | .complete temporary => some temporary
  | _ => none

/-- The place of the temporary file in a directory. -/
def temporaryIn (w : Writing) (directory : Location) : Location := directory ++ [w.temporary]

/-- What a step of writing can do. -/
inductive Step (w : Writing) : FileTree → Phase → FileTree → Phase → Prop
  | refuse {tree : FileTree} (error : StatsError) (hinvalid : ¬ w.Valid) :
      Step w tree .unchecked tree (.ended (.error (.inconsistent error)))
  | check {tree : FileTree} (hvalid : w.Valid) :
      Step w tree .unchecked tree (.checked (membersOf w.metadata w.data))
  | prepare {tree made : FileTree} {members : List (String × ByteArray)} (directory : Location)
      (hmade : made.Extends tree) :
      Step w tree (.checked members) made (.prepared directory members)
  /-- The directories cannot be made, or it fails after some of them. -/
  | stop {tree made : FileTree} {members : List (String × ByteArray)} (hmade : made.Extends tree) :
      Step w tree (.checked members) made failed
  | create {tree : FileTree} {directory : Location} {members : List (String × ByteArray)}
      (hfresh : tree.file? (w.temporaryIn directory) = none) :
      Step w tree (.prepared directory members) (tree.setFile (w.temporaryIn directory) .unfinished)
        (.filling (w.temporaryIn directory) [] members)
  | forgo {tree : FileTree} {directory : Location} {members : List (String × ByteArray)} :
      Step w tree (.prepared directory members) tree failed
  | append {tree : FileTree} {temporary : Location} {done rest : List (String × ByteArray)}
      {member : String × ByteArray} (hsize : member.2.size ≤ Archive.sizeLimit) :
      Step w tree (.filling temporary done (member :: rest)) tree
        (.filling temporary (done ++ [member]) rest)
  | finish {tree : FileTree} {temporary : Location} {done : List (String × ByteArray)} :
      Step w tree (.filling temporary done [])
        (tree.setFile temporary (.archive (.ofMembers done))) (.complete temporary)
  | abandon {tree : FileTree} {phase : Phase} {temporary : Location}
      (hphase : phase.temporary? = some temporary) :
      Step w tree phase (tree.removeFile temporary) failed
  | move {tree : FileTree} {temporary location : Location} {contents : Contents}
      (hplace : tree.place w.path = .ok location)
      (hfile : tree.file? temporary = some contents) :
      Step w tree (.complete temporary) ((tree.removeFile temporary).setFile location contents)
        (.ended (.ok ()))
  | stay {tree : FileTree} {result : Except WriteError Unit} :
      Step w tree (.ended result) tree (.ended result)

theorem step_unchecked_of_valid (hvalid : w.Valid) (isFailing : Bool) :
    w.step isFailing tree .unchecked = (tree, .checked (membersOf w.metadata w.data)) := by
  unfold step
  rw [Archive.save_of_validate hvalid.1 hvalid.2]
  -- Whether a member is oversized makes no difference to this step.
  generalize List.any _ _ = isOversized
  cases isOversized with
  | true => rfl
  | false => simp [Archive.members_ofMembers]

theorem step_unchecked_of_not_valid (hinvalid : ¬ w.Valid) (isFailing : Bool) (tree : FileTree) :
    ∃ error, w.step isFailing tree .unchecked =
      (tree, .ended (.error (.inconsistent error))) := by
  obtain ⟨error, hsave⟩ : ∃ error,
      Archive.save w.metadata w.data = .error (.inconsistent error) := by
    cases hm : w.metadata.validate with
    | error error => exact ⟨error, by simp only [Archive.save, hm]; rfl⟩
    | ok _ =>
        cases hd : w.data.validate w.metadata with
        | error error => exact ⟨error, by simp only [Archive.save, hm, hd]; rfl⟩
        | ok _ => exact absurd ⟨hm, hd⟩ hinvalid
  refine ⟨error, ?_⟩
  unfold step
  rw [hsave]

/-- Every step is one of them, whether or not it is made to fail. -/
theorem step_spec (w : Writing) (isFailing : Bool) (tree : FileTree) (phase : Phase) :
    w.Step tree phase (w.step isFailing tree phase).1 (w.step isFailing tree phase).2 := by
  cases phase with
  | unchecked =>
      by_cases hvalid : w.Valid
      · rw [step_unchecked_of_valid hvalid]
        exact .check hvalid
      · obtain ⟨error, hstep⟩ := step_unchecked_of_not_valid hvalid isFailing tree
        rw [hstep]
        exact .refuse error hvalid
  | checked members =>
      have hmade := FileTree.extends_makeDirectories tree (Path.directory w.path)
      unfold step
      dsimp only
      split
      next made directory hmake =>
        rw [hmake] at hmade
        split
        · exact .stop hmade
        · exact .prepare directory hmade
      next made fault hmake =>
        rw [hmake] at hmade
        exact .stop hmade
  | prepared directory members =>
      unfold step
      dsimp only
      split
      · exact .forgo
      next hfree =>
        simp only [Bool.or_eq_true, not_or, Bool.not_eq_true, Option.isSome_eq_false_iff,
          Option.isNone_iff_eq_none] at hfree
        exact .create hfree.2
  | filling temporary done rest =>
      unfold step
      cases rest with
      | nil =>
          dsimp only
          split
          · exact .abandon rfl
          · exact .finish
      | cons member rest =>
          dsimp only
          split
          · exact .abandon rfl
          next hsize =>
            simp only [Bool.or_eq_true, decide_eq_true_eq, not_or, Nat.not_lt] at hsize
            exact .append hsize.2
  | complete temporary =>
      unfold step
      dsimp only
      split
      next location contents hplace hfile =>
        split
        · exact .abandon rfl
        · exact .move hplace hfile
      · exact .abandon rfl
  | ended result => exact .stay

/-! ## What a step leaves alone -/

/-- No step changes the working directory. -/
theorem Step.workingDirectory_eq (hstep : w.Step tree phase tree' phase') :
    tree'.workingDirectory = tree.workingDirectory := by
  cases hstep with
  | prepare directory hmade => exact hmade.within.workingDirectory_eq.symm
  | stop hmade => exact hmade.within.workingDirectory_eq.symm
  | _ => rfl

/-- A file that belongs to the write neither before the step nor after it stays as it is, unless it
is the one at the destination and the step moves a file there. -/
theorem Step.file?_eq (hstep : w.Step tree phase tree' phase')
    (hbefore : phase.temporary? ≠ some location) (hafter : phase'.temporary? ≠ some location)
    (hmove : phase.isMove phase' → location.getLast? ≠ Path.fileName? w.path) :
    tree'.file? location = tree.file? location := by
  cases hstep with
  | refuse | check | forgo | append | stay => rfl
  | prepare directory hmade => exact hmade.file?_eq location
  | stop hmade => exact hmade.file?_eq location
  | create => exact FileTree.file?_setFile_of_ne fun heq => hafter (heq ▸ rfl)
  | finish => exact FileTree.file?_setFile_of_ne fun heq => hafter (heq ▸ rfl)
  | abandon hphase => exact FileTree.file?_removeFile_of_ne fun heq => hbefore (heq ▸ hphase)
  | move hplace =>
      obtain ⟨rfl, name, hname⟩ := FileTree.place_spec hplace
      have hlast := FileTree.getLast?_locationOf tree hname
      have htarget := hmove rfl
      rw [FileTree.file?_setFile_of_ne fun heq => htarget (by rw [heq, hlast, hname])]
      exact FileTree.file?_removeFile_of_ne fun heq => hbefore (heq ▸ rfl)

/-- A temporary file that belongs to a write is its own already, or none was there before. -/
theorem Step.temporary?_cases (hstep : w.Step tree phase tree' phase')
    (hafter : phase'.temporary? = some location) :
    phase.temporary? = some location ∨ tree.file? location = none := by
  cases hstep with
  | create hfresh => exact .inr (Option.some.inj hafter ▸ hfresh)
  | append | finish => exact .inl hafter
  | _ => cases hafter

/-- A place for a file that is there stays one. -/
theorem Step.place (hstep : w.Step tree phase tree' phase')
    (hfile : (tree.file? location).isSome) {path : String}
    (hplace : tree.place path = .ok location) : tree'.place path = .ok location := by
  cases hstep with
  | refuse | check | forgo | append | stay => exact hplace
  | prepare directory hmade => exact hmade.place hfile hplace
  | stop hmade => exact hmade.place hfile hplace
  | create | finish | abandon | move => refine FileTree.place_congr ?_ ?_ hplace <;> rfl

/-! ## What is known of a phase -/

/-- What is known of a tree and a phase of writing. -/
def Sound (w : Writing) (tree : FileTree) : Phase → Prop
  | .unchecked => True
  | .checked members => w.Valid ∧ members = membersOf w.metadata w.data
  | .prepared _ members => w.Valid ∧ members = membersOf w.metadata w.data
  | .filling temporary done rest =>
      w.Valid ∧ done ++ rest = membersOf w.metadata w.data ∧
        (∀ member ∈ done, member.2.size ≤ Archive.sizeLimit) ∧
        temporary.getLast? = some w.temporary ∧ (tree.file? temporary).isSome
  | .complete temporary =>
      Storable w.metadata w.data ∧ temporary.getLast? = some w.temporary ∧
        tree.file? temporary = some (.archive (.ofMembers (membersOf w.metadata w.data)))
  | .ended (.ok ()) => Storable w.metadata w.data
  | .ended (.error (.inconsistent _)) => ¬ w.Valid
  | .ended (.error .unwritable) => w.Valid

/-- What is known of a phase stays known where its temporary file is left alone. -/
theorem Sound.congr (h : w.Sound tree phase)
    (hfile : ∀ location, phase.temporary? = some location →
      tree'.file? location = tree.file? location) : w.Sound tree' phase := by
  cases phase with
  | filling temporary done rest =>
      obtain ⟨hvalid, hmembers, hsizes, hname, hthere⟩ := h
      exact ⟨hvalid, hmembers, hsizes, hname, hfile temporary rfl ▸ hthere⟩
  | complete temporary =>
      obtain ⟨hstorable, hname, hheld⟩ := h
      exact ⟨hstorable, hname, (hfile temporary rfl).trans hheld⟩
  | ended result => rcases result with (_ | _) | ⟨⟩ <;> exact h
  | _ => exact h

/-- The temporary file of a phase is there, under the name that the write has for it. -/
theorem Sound.temporary (h : w.Sound tree phase) (hphase : phase.temporary? = some location) :
    location.getLast? = some w.temporary ∧ (tree.file? location).isSome := by
  cases phase with
  | filling temporary done rest =>
      obtain rfl := Option.some.inj hphase
      exact h.2.2.2
  | complete temporary =>
      obtain rfl := Option.some.inj hphase
      exact ⟨h.2.1, Option.isSome_of_eq_some h.2.2⟩
  | _ => cases hphase

theorem storable_of_valid (hvalid : w.Valid)
    (hsizes : ∀ member ∈ membersOf w.metadata w.data, member.2.size ≤ Archive.sizeLimit) :
    Storable w.metadata w.data :=
  Archive.storable_iff.mpr ⟨hvalid.1, hvalid.2, hsizes⟩

theorem valid_of_storable (h : Storable w.metadata w.data) : w.Valid :=
  ⟨(Archive.storable_iff.mp h).1, (Archive.storable_iff.mp h).2.1⟩

/-- A phase in which there is a temporary file comes after the checks. -/
theorem Sound.valid (h : w.Sound tree phase) (hphase : phase.temporary? = some location) :
    w.Valid := by
  cases phase with
  | filling => exact h.1
  | complete => exact valid_of_storable h.1
  | _ => cases hphase

/-- Each step keeps what is known. -/
theorem Step.sound (hstep : w.Step tree phase tree' phase') (h : w.Sound tree phase) :
    w.Sound tree' phase' := by
  cases hstep with
  | refuse error hinvalid => exact hinvalid
  | check hvalid => exact ⟨hvalid, rfl⟩
  | prepare => exact h
  | stop => exact h.1
  | create =>
      obtain ⟨hvalid, hmembers⟩ := h
      refine ⟨hvalid, hmembers, List.forall_mem_nil _, List.getLast?_concat, ?_⟩
      rw [FileTree.file?_setFile]
      rfl
  | forgo => exact h.1
  | append hsize =>
      obtain ⟨hvalid, hmembers, hsizes, htemporary⟩ := h
      refine ⟨hvalid, by rw [List.append_assoc]; exact hmembers, ?_, htemporary⟩
      intro member hmember
      rcases List.mem_append.mp hmember with hdone | hlast
      · exact hsizes member hdone
      · rw [List.mem_singleton.mp hlast]
        exact hsize
  | finish =>
      obtain ⟨hvalid, hmembers, hsizes, hname, -⟩ := h
      rw [List.append_nil] at hmembers
      refine ⟨storable_of_valid hvalid (hmembers ▸ hsizes), hname, ?_⟩
      rw [FileTree.file?_setFile, hmembers]
  | abandon hphase => exact h.valid hphase
  | move => exact h.1
  | stay => exact h

/-- What a step has moved to the destination is the archive of the statistics. -/
theorem Step.held?_of_isMove (hstep : w.Step tree phase tree' phase')
    (h : w.Sound tree phase) (hmove : phase.isMove phase') :
    tree'.held? w.path = some (.archive (.ofMembers (membersOf w.metadata w.data))) ∧
      (∃ location, tree'.place w.path = .ok location) ∧ phase' = .ended (.ok ()) := by
  cases hstep with
  | @move temporary location contents hplace hfile =>
      have hcontents := Option.some.inj (hfile.symm.trans h.2.2)
      have hthere : ((tree.removeFile temporary).setFile location contents).place w.path =
          .ok location := by
        refine FileTree.place_congr ?_ ?_ hplace <;> rfl
      refine ⟨?_, ⟨location, hthere⟩, rfl⟩
      rw [FileTree.held?_of_place hthere, FileTree.file?_setFile, hcontents]
  | _ => simp [Phase.isMove, failed] at hmove

/-- Writing has only then succeeded when the file has been moved. -/
theorem Step.ended_ok_iff (hstep : w.Step tree phase tree' phase') :
    phase' = .ended (.ok ()) ↔ phase = .ended (.ok ()) ∨ phase.isMove phase' := by
  cases hstep with
  | stay => simp [Phase.isMove]
  | move => simp [Phase.isMove]
  | abandon hphase =>
      constructor
      · rintro ⟨⟩
      · rintro (rfl | hmove)
        · cases hphase
        · simp [Phase.isMove, failed] at hmove
  | _ => simp [Phase.isMove, failed]

/-! ## Runs -/

/-- Where the header and the arrays fit together, no run ends because they do not. -/
theorem run_ne_inconsistent (hvalid : w.Valid) (h : w.Sound tree phase) (steps : Nat)
    (error : StatsError) : (w.run steps tree phase).2 ≠ .error (.inconsistent error) := by
  induction steps generalizing tree phase with
  | zero =>
      cases phase with
      | ended result =>
          rw [run_ended]
          rintro rfl
          exact h hvalid
      | _ =>
          intro hrun
          cases hrun
  | succ steps ih =>
      rw [run_succ]
      exact ih ((w.step_spec false tree phase).sound h)

end Writing

end VoltageStats
