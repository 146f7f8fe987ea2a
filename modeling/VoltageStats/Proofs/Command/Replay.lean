import VoltageStats.Command.Generate
import VoltageStats.Proofs.Bytes
import VoltageStats.Proofs.FileTree.Basic
import VoltageStats.Proofs.OptionSources

/-!
# Replaying a run from saved options

A file of options that a run has saved stands for all of its options: to merge it with none from
the command line gives what was merged before, and hence the same plan (`arguments_replay`). No
option is lost on the way to the file and back, since the doubles that command lines and files can
give are read as they are written.
-/

namespace VoltageStats.Command

/-- A command on a host that is a value. -/
abbrev Action (α : Type) : Type := ExceptT CommandError (StateM Session) α

variable {α β : Type} {s t u : Session}

/-! ## Running the parts of a command -/

theorem run_bind (x : Action α) (f : α → Action β) (s : Session) :
    (x >>= f).run s = match x.run s with
      | (.ok a, t) => (f a).run t
      | (.error e, t) => (.error e, t) := by
  show ExceptT.bindCont f (x.run s).1 (x.run s).2 = _
  rcases x.run s with ⟨_ | _, t⟩
  · rfl
  · rfl

theorem run_bind_eq_ok_iff {x : Action α} {f : α → Action β} {b : β} :
    (x >>= f).run s = (.ok b, u) ↔ ∃ a t, x.run s = (.ok a, t) ∧ (f a).run t = (.ok b, u) := by
  rw [run_bind]
  constructor
  · intro h
    rcases hx : x.run s with ⟨e | a, t⟩
    · rw [hx] at h
      cases h
    · rw [hx] at h
      exact ⟨a, t, rfl, h⟩
  · rintro ⟨a, t, hx, h⟩
    rw [hx]
    exact h

/-- What the host yields is yielded, with a fault under another name. -/
theorem run_allowed {ε : Type} (toError : ε → CommandError) (action : StateM Session (Except ε α))
    (s : Session) :
    (allowed toError action : Action α).run s = ((action s).1.mapError toError, (action s).2) := by
  have hlift : (ExceptT.lift action : Action (Except ε α)).run s =
      (.ok (action s).1, (action s).2) := rfl
  rw [allowed, run_bind, hlift]
  rcases action s with ⟨_ | _, t⟩
  · rfl
  · rfl

theorem run_allowed_eq_ok_iff {ε : Type} {toError : ε → CommandError}
    {action : StateM Session (Except ε α)} {a : α} :
    (allowed toError action : Action α).run s = (.ok a, t) ↔ action s = (.ok a, t) := by
  rw [run_allowed]
  rcases action s with ⟨e | b, t⟩
  · constructor <;> intro h <;> cases h
  · constructor <;> intro h <;> cases h <;> rfl

/-! ## Merging options -/

/-- The options that a path and the file that it leads to give. -/
def argumentsOf (path : String) (opened : Except PathFault Contents) :
    Except CommandError GivenOptions := do
  let some format := ArgumentFormat.ofPath? path | throw (.argumentFile (.unknownFormat path))
  let .ok (.bytes bytes) := opened | throw .host
  let some text := String.fromUTF8? bytes | throw .host
  let some given := format.options? text | throw (.argumentFile (.malformed format path))
  return given

/-- The options in an argument file, if there is one. -/
def argumentsIn (tree : FileTree) : (file : Option String) → Except CommandError GivenOptions
  | some path => argumentsOf path (tree.open? path)
  | none => .ok .none

/-- To read options changes nothing, and of all files only the one that is read matters. -/
theorem run_readArguments (path : String) (s : Session) :
    (readArguments path : Action GivenOptions).run s =
      (argumentsOf path (s.tree.open? path), s) := by
  have hopen : (allowed (fun _ => .host) (Host.open? path) : Action Contents).run s =
      ((s.tree.open? path).mapError fun _ => .host, s) := run_allowed _ _ _
  unfold readArguments argumentsOf
  cases ArgumentFormat.ofPath? path with
  | none => rfl
  | some format =>
      simp only [run_bind, hopen]
      rcases s.tree.open? path with fault | contents
      · rfl
      · cases contents with
        | bytes bytes =>
            simp only [Except.mapError]
            cases String.fromUTF8? bytes with
            | none => rfl
            | some text =>
                dsimp only
                cases format.options? text <;> rfl
        | archive _ => rfl
        | unfinished => rfl

/-- Options are merged if those in the file can be read. Nothing else comes of it. -/
theorem run_mergeArguments_eq_ok_iff {file : Option String} {given merged : GivenOptions} :
    (mergeArguments file given : Action GivenOptions).run s = (.ok merged, t) ↔
      (∃ found, argumentsIn s.tree file = .ok found ∧ given.orElse found = merged) ∧ s = t := by
  cases file with
  | none =>
      have hnone : given.orElse .none = given := GivenOptions.ext fun o => Option.or_none
      show ((Except.ok given, s) : Except CommandError GivenOptions × Session) = (.ok merged, t) ↔ _
      rw [Prod.mk.injEq]
      simp [argumentsIn, hnone]
  | some path =>
      show (readArguments path >>= fun found => pure (given.orElse found) : Action _).run s = _ ↔ _
      rw [run_bind_eq_ok_iff, run_readArguments]
      constructor
      · rintro ⟨found, read, hread, h⟩
        obtain ⟨hfound, rfl⟩ := Prod.mk.inj hread
        cases h
        exact ⟨⟨found, hfound, rfl⟩, rfl⟩
      · rintro ⟨⟨found, hfound, rfl⟩, rfl⟩
        exact ⟨found, s, by rw [← hfound]; rfl, rfl⟩

/-! ## Saving options -/

theorem put_eq_ok_iff {path : String} {contents : Contents} :
    Session.put path contents s = (.ok (), t) ↔
      ∃ location, s.tree.place path = .ok location ∧
        { s with tree := s.tree.setFile location contents } = t := by
  unfold Session.put
  cases s.tree.place path with
  | error fault =>
      constructor
      · intro h
        cases h
      · rintro ⟨_, h, -⟩
        cases h
  | ok location =>
      constructor
      · intro h
        cases h
        exact ⟨location, rfl, rfl⟩
      · rintro ⟨_, h, rfl⟩
        cases h
        rfl

/-- Options are saved if their file has a place and they have a text. The file is emptied first. -/
theorem run_saveArguments_eq_ok_iff {path : String} {given : GivenOptions} :
    (saveArguments path given : Action Unit).run s = (.ok (), t) ↔
      ∃ location text, s.tree.place path = .ok location ∧ given.savedText? = some text ∧
        { s with
          tree := (s.tree.setFile location (.bytes .empty)).setFile location
            (.bytes text.toUTF8) } = t := by
  constructor
  · intro h
    obtain ⟨_, created, hcreate, h⟩ := run_bind_eq_ok_iff.mp h
    obtain ⟨location, hplace, rfl⟩ := put_eq_ok_iff.mp (run_allowed_eq_ok_iff.mp hcreate)
    cases htext : given.savedText? with
    | none =>
        rw [htext] at h
        cases h
    | some text =>
        rw [htext] at h
        obtain ⟨again, hagain, rfl⟩ := put_eq_ok_iff.mp (run_allowed_eq_ok_iff.mp h)
        have hsame := hplace.symm.trans (FileTree.place_setFile_eq_ok_iff.mp hagain)
        cases hsame
        exact ⟨location, text, hplace, rfl, rfl⟩
  · rintro ⟨location, text, hplace, htext, rfl⟩
    have hcreate : Session.put path (.bytes .empty) s =
        (.ok (), { s with tree := s.tree.setFile location (.bytes .empty) }) :=
      put_eq_ok_iff.mpr ⟨location, hplace, rfl⟩
    refine run_bind_eq_ok_iff.mpr ⟨(), _, run_allowed_eq_ok_iff.mpr hcreate, ?_⟩
    rw [htext]
    refine run_allowed_eq_ok_iff.mpr (put_eq_ok_iff.mpr ⟨location, ?_, rfl⟩)
    exact FileTree.place_setFile_eq_ok_iff.mpr hplace

/-- Options that are saved have a text, which is what the file holds then. -/
theorem open?_of_saveArguments {path : String} {given : GivenOptions}
    (h : (saveArguments path given : Action Unit).run s = (.ok (), t)) :
    ∃ text, given.savedText? = some text ∧ t.tree.open? path = .ok (.bytes text.toUTF8) := by
  obtain ⟨location, text, hplace, htext, rfl⟩ := run_saveArguments_eq_ok_iff.mp h
  exact ⟨text, htext, FileTree.open?_setFile (FileTree.place_setFile_eq_ok_iff.mpr hplace)⟩

/-! ## Plans -/

/-- Warnings are only logged. -/
theorem run_warnings (messages : List String) (s : Session) :
    ∃ t, (messages.forM warn : Action Unit).run s = (.ok (), t) := by
  induction messages generalizing s with
  | nil => exact ⟨s, rfl⟩
  | cons message messages ih =>
      obtain ⟨t, ht⟩ := ih { s with log := s.log ++ [⟨.warning, message⟩] }
      refine ⟨t, ?_⟩
      show (warn message >>= fun _ => messages.forM warn : Action Unit).run s = _
      rw [run_bind, ← ht]
      rfl

/-- The plan that follows from options, without the warnings. -/
def outcome (given : GivenOptions) : Except CommandError Plan := do
  let config ← (Config.ofSettings given.settings).mapError .config
  let path ← given.path.mapError .noPath
  return ⟨config, given.identifiers, path⟩

/-- Options alone decide about the plan that follows from them. -/
theorem run_plan (given : GivenOptions) (s : Session) :
    ∃ t, (plan given : Action Plan).run s = (outcome given, t) := by
  unfold plan outcome
  cases Config.ofSettings given.settings with
  | error e => exact ⟨s, rfl⟩
  | ok config =>
      obtain ⟨t, ht⟩ := run_warnings config.warnings s
      simp only [run_bind, ht]
      cases given.path with
      | ok path => exact ⟨t, rfl⟩
      | error e =>
          obtain ⟨u, hu⟩ := run_warnings (pathWarnings e) t
          simp only [run_bind, hu]
          exact ⟨u, rfl⟩

/-! ## Replaying -/

/-- Options are given by a file with a text in the format that the path of the file says. -/
theorem argumentsOf_eq_ok_iff {path : String} {opened : Except PathFault Contents}
    {given : GivenOptions} :
    argumentsOf path opened = .ok given ↔
      ∃ format text, ArgumentFormat.ofPath? path = some format ∧
        opened = .ok (.bytes text.toUTF8) ∧ format.options? text = some given := by
  constructor
  · intro h
    unfold argumentsOf at h
    split at h
    next format hformat =>
      split at h
      next bytes =>
        split at h
        next text htext =>
          split at h
          next found hfound =>
            cases h
            obtain rfl := fromUTF8?_eq_some_iff.mp htext
            exact ⟨format, text, hformat, rfl, hfound⟩
          next => cases h
        next => cases h
      next => cases h
    next => cases h
  · rintro ⟨format, text, hformat, rfl, hgiven⟩
    have hutf8 : String.fromUTF8? text.toUTF8 = some text := fromUTF8?_eq_some_iff.mpr rfl
    simp only [argumentsOf, hformat, hutf8, hgiven]
    rfl

/-- What an argument file gives is canonical. -/
theorem isCanonical_of_argumentsIn {tree : FileTree} {file : Option String} {given : GivenOptions}
    (h : argumentsIn tree file = .ok given) : given.IsCanonical := by
  cases file with
  | none =>
      obtain rfl := Except.ok.inj h
      intro o value hvalue
      cases hvalue
  | some path =>
      obtain ⟨format, text, -, -, hgiven⟩ := argumentsOf_eq_ok_iff.mp h
      exact GivenOptions.isCanonical_of_options? hgiven

/-- The text of canonical options gives exactly these. -/
theorem options?_savedText? {text : String} {given : GivenOptions} (hgiven : given.IsCanonical)
    (htext : given.savedText? = some text) : ArgumentFormat.toml.options? text = some given := by
  rw [ArgumentFormat.options?, GivenOptions.parse?_savedText? hgiven htext]
  exact GivenOptions.ofToml?_toToml htext

/-- Where a TOML file holds the text of canonical options, these are merged with none from the
command line. -/
theorem run_mergeArguments_saved {path text : String} {given : GivenOptions}
    (hformat : ArgumentFormat.ofPath? path = some .toml)
    (hopen : s.tree.open? path = .ok (.bytes text.toUTF8)) (hgiven : given.IsCanonical)
    (htext : given.savedText? = some text) :
    (mergeArguments (some path) .none : Action GivenOptions).run s = (.ok given, s) := by
  have hfound : argumentsIn s.tree (some path) = .ok given :=
    argumentsOf_eq_ok_iff.mpr ⟨.toml, text, hformat, hopen, options?_savedText? hgiven htext⟩
  have hnone : GivenOptions.none.orElse given = given := GivenOptions.ext fun o => Option.none_or
  exact run_mergeArguments_eq_ok_iff.mpr ⟨⟨given, hfound, hnone⟩, rfl⟩

/-- Saved options replay the run. An option counts from the command line if it is given there, and
else from the file, so it does not matter where it stands. When merged options have been saved as
a TOML document, a run from nothing but this file has the same options, and the same plan or error
follows from them. After the saving the run goes on as such a run starts. -/
theorem arguments_replay {arguments : List String} {invocation : Invocation}
    {file : Option String} {given merged : GivenOptions}
    (hline : Invocation.ofArguments arguments = .ok invocation)
    (hcommand : invocation.command = .generate file given)
    (hmerge : (mergeArguments file given : Action GivenOptions).run s = (.ok merged, t)) :
    (∃ found, argumentsIn s.tree file = .ok found ∧
      (∀ o, merged.value? o = (given.value? o).or (found.value? o)) ∧
      ∀ all first second, (∀ o, first o || second o) → given = GivenOptions.only all first →
        found = GivenOptions.only all second → merged = all) ∧
    ∀ path saved, ArgumentFormat.ofPath? path = some .toml →
      (saveArguments path merged : Action Unit).run t = (.ok (), saved) →
      (∀ later : Session, later.tree.open? path = saved.tree.open? path →
        (mergeArguments (some path) .none : Action GivenOptions).run later = (.ok merged, later) ∧
        ((mergeArguments (some path) .none >>= plan : Action Plan).run later).1 =
          ((mergeArguments file given >>= plan : Action Plan).run s).1) ∧
      ∀ isDryRun,
        (generateArchive isDryRun .none (some path) .none : Action Unit).run saved =
          (generateArchive isDryRun (some path) file given : Action Unit).run s := by
  obtain ⟨⟨found, hfound, hmerged⟩, rfl⟩ := run_mergeArguments_eq_ok_iff.mp hmerge
  -- Its doubles come from a command line or a file, so each of them is read as it is written.
  have hcanonical : merged.IsCanonical := by
    rw [← hmerged]
    exact (CommandLine.isCanonical_of_ofArguments hline hcommand).orElse
      (isCanonical_of_argumentsIn hfound)
  refine ⟨⟨found, hfound, ?_, ?_⟩, ?_⟩
  · intro o
    rw [← hmerged, GivenOptions.value?_orElse]
  · rintro all first second hall rfl rfl
    rw [← hmerged, GivenOptions.only_orElse_only all hall]
  · intro path saved hformat hsave
    obtain ⟨text, htext, hopen⟩ := open?_of_saveArguments hsave
    have hagain : ∀ later : Session, later.tree.open? path = saved.tree.open? path →
        (mergeArguments (some path) .none : Action GivenOptions).run later =
          (.ok merged, later) := fun later hlater =>
      run_mergeArguments_saved hformat (hlater.trans hopen) hcanonical htext
    refine ⟨fun later hlater => ⟨hagain later hlater, ?_⟩, fun isDryRun => ?_⟩
    · obtain ⟨_, hplan⟩ := run_plan merged s
      obtain ⟨_, hplanLater⟩ := run_plan merged later
      simp only [run_bind, hagain later hlater, hmerge, hplan, hplanLater]
    · -- Both runs are in the session after the saving when they come to the plan.
      unfold generateArchive
      simp only [run_bind, hagain saved rfl, hmerge, hsave]

/-- The options of a command line. -/
def fewChannels : GivenOptions where
  value?
    | .nchan => some (4 : UInt32)
    | .rfiChannels => some ([3, 0] : List Nat)
    | _ => none

/-- The options of a file. -/
def manyChannels : GivenOptions where
  value?
    | .output => some "noise.npz"
    | .nchan => some (8 : UInt32)
    | .sigma => some (Binary64.ofDecimal true 5 (-1))
    | _ => none

theorem isCanonical_manyChannels : manyChannels.IsCanonical := by
  intro o value h
  cases o with
  | sigma =>
      obtain rfl := Option.some.inj h
      exact Binary64.isCanonical_ofDecimal true 5 (-1)
  | frequencyMhz | bandwidthMhz | tsamp | osFactor => cases h
  | _ => trivial

/-- A session with one file. -/
def oneFile (text : String) : Session where
  tree := FileTree.setFile .empty ["run.toml"] (.bytes text.toUTF8)
  log := []
  printed := []
  noise _ := .zero

theorem open?_oneFile (text : String) :
    (oneFile text).tree.open? "run.toml" = .ok (.bytes text.toUTF8) :=
  FileTree.open?_setFile (by decide +kernel)

/-- A command line with some options and a file. -/
def fewArguments : List String :=
  ["generate", "run.toml", "--nchan", "4", "--rfi-channels", "3", "0"]

/-- What is read after the name of the command. -/
def fewReading : CommandLine.Reading :=
  ⟨[("rfi-channels", ["3", "0"]), ("nchan", ["4"])], ["run.toml"], .furtherValue⟩

/-- The text of the options of the file. -/
def manyText : String := "output = \"noise.npz\"\nnchan = 8\nsigma = -0.5\n"

theorem givenOptions_fewReading : CommandLine.givenOptions fewReading = .ok fewChannels := by
  rw [CommandLine.givenOptions_eq_ok_iff]
  intro o
  cases o with
  | nchan =>
      have hvalues : fewReading.values (CommandLine.optionName .nchan) = ["4"] := by
        decide +kernel
      rw [if_pos (by decide +kernel), hvalues]
      rfl
  | rfiChannels =>
      have hvalues : fewReading.values (CommandLine.optionName .rfiChannels) = ["3", "0"] := by
        decide +kernel
      rw [if_pos (by decide +kernel), hvalues]
      rfl
  | _ => exact if_neg (by decide +kernel)

theorem ofArguments_fewArguments : Invocation.ofArguments fewArguments =
    .ok (CommandLine.invocation .start fewReading (.generate (some "run.toml") fewChannels)) := by
  have hmain : CommandLine.mainGrammar.run .start fewArguments =
      .ok (.start, some ("generate", fewArguments.tail)) := by decide +kernel
  have hafter : CommandLine.generateGrammar.run .start fewArguments.tail =
      .ok (fewReading, none) := by decide +kernel
  exact CommandLine.ofArguments_eq_ok hmain hafter (by decide +kernel) (by decide +kernel)
    givenOptions_fewReading

theorem arguments_replay_fewChannels :
    let s := oneFile manyText
    let merged := fewChannels.orElse manyChannels
    merged.value? .nchan = some (4 : UInt32) ∧
      (mergeArguments (some "run.toml") fewChannels : Action GivenOptions).run s =
        (.ok merged, s) ∧
      ∃ saved, (saveArguments "again.toml" merged : Action Unit).run s = (.ok (), saved) ∧
        (mergeArguments (some "again.toml") .none : Action GivenOptions).run saved =
          (.ok merged, saved) := by
  intro s merged
  have hmany : manyChannels.savedText? = some manyText := by decide +kernel
  have hformat : ArgumentFormat.ofPath? "run.toml" = some .toml := by decide +kernel
  have hfound : argumentsOf "run.toml" (s.tree.open? "run.toml") = .ok manyChannels :=
    argumentsOf_eq_ok_iff.mpr ⟨.toml, manyText, hformat, open?_oneFile manyText,
      options?_savedText? isCanonical_manyChannels hmany⟩
  have hmerge : (mergeArguments (some "run.toml") fewChannels : Action GivenOptions).run s =
      (.ok merged, s) := run_mergeArguments_eq_ok_iff.mpr ⟨⟨manyChannels, hfound, rfl⟩, rfl⟩
  have hsaved : ∃ saved, (saveArguments "again.toml" merged : Action Unit).run s =
      (.ok (), saved) := by
    have htext : merged.savedText?.isSome := by decide +kernel
    obtain ⟨text, htext⟩ := Option.isSome_iff_exists.mp htext
    have hplace : s.tree.place "again.toml" = .ok ["again.toml"] :=
      FileTree.place_setFile_eq_ok_iff.mpr (by decide +kernel)
    exact ⟨_, run_saveArguments_eq_ok_iff.mpr ⟨["again.toml"], text, hplace, htext, rfl⟩⟩
  obtain ⟨saved, hsave⟩ := hsaved
  have hagain : ArgumentFormat.ofPath? "again.toml" = some .toml := by decide +kernel
  have hreplay := (arguments_replay ofArguments_fewArguments rfl hmerge).2 "again.toml" saved
    hagain hsave
  exact ⟨rfl, hmerge, saved, hsave, (hreplay.1 saved rfl).1⟩

end VoltageStats.Command
