import VoltageStats.Command.Run
import VoltageStats.Proofs.Command.Replay
import VoltageStats.Proofs.FileTree.Step

/-!
# Runs that cannot save their options

A TOML document holds no integer of `2 ^ 63` and more, so options with such an integer have no text
(`GivenOptions.savedText?_eq_none_iff`). This is the only cause for which a run cannot save its
options once it has merged them and found a place for their file. It comes to light after the file
has been made, and so the file is left empty, whatever was in it before
(`Command.unsavable_empties_file`).
-/

namespace VoltageStats

/-! ## Integers that have no text -/

namespace FieldKind

/-- Whether there is an integer in a value that is too large for a signed word of 64 bits. -/
def IsLarge : (kind : FieldKind) → kind.Value → Prop
  | word64, n => 2 ^ 63 ≤ n.toNat
  | channels, numbers => ∃ n ∈ numbers, 2 ^ 63 ≤ n
  | _, _ => False

/-- Every word of 32 bits has a text. -/
theorem scalarText?_word_ne_none (n : UInt32) : Toml.scalarText? (.integer n.toNat) ≠ none := by
  have hlt := n.toNat_lt
  rw [Ne, scalarText?_integer_eq_none_iff]
  omega

/-- The values that have no text are those with too large an integer in them. -/
theorem valueText?_toToml_eq_none_iff {kind : FieldKind} {value : kind.Value} :
    Toml.valueText? (kind.toToml value) = none ↔ kind.IsLarge value := by
  cases kind with
  | text => simp [toToml, Toml.valueText?, Toml.scalarText?, IsLarge]
  | double => simp [toToml, Toml.valueText?, Toml.scalarText?, IsLarge]
  | word32 =>
      show Toml.scalarText? (.integer value.toNat) = none ↔ False
      exact iff_of_false (scalarText?_word_ne_none value) id
  | word64 =>
      show Toml.scalarText? (.integer value.toNat) = none ↔ 2 ^ 63 ≤ value.toNat
      exact scalarText?_integer_eq_none_iff
  | doubles =>
      rw [toToml, valueText?_array_eq_none_iff]
      refine iff_of_false ?_ id
      intro h
      obtain ⟨item, hmem, hnone⟩ := h
      obtain ⟨x, -, rfl⟩ := List.mem_map.mp hmem
      cases hnone
  | words =>
      rw [toToml, valueText?_array_eq_none_iff]
      refine iff_of_false ?_ id
      intro h
      obtain ⟨item, hmem, hnone⟩ := h
      obtain ⟨n, -, rfl⟩ := List.mem_map.mp hmem
      exact scalarText?_word_ne_none n hnone
  | channels =>
      rw [toToml, valueText?_array_eq_none_iff]
      constructor
      · intro h
        obtain ⟨item, hmem, hnone⟩ := h
        obtain ⟨n, hn, rfl⟩ := List.mem_map.mp hmem
        exact ⟨n, hn, scalarText?_integer_eq_none_iff.mp hnone⟩
      · intro h
        obtain ⟨n, hn, hlarge⟩ := h
        exact ⟨_, List.mem_map_of_mem hn, scalarText?_integer_eq_none_iff.mpr hlarge⟩

end FieldKind

namespace GivenOptions

/-- Whether an option is given with an integer that is too large for a signed word of 64 bits. -/
def HasLargeInteger (given : GivenOptions) : Prop :=
  ∃ o value, given.value? o = some value ∧ o.kind.IsLarge value

/-- The options that have no text are those with too large an integer among them. -/
theorem savedText?_eq_none_iff {given : GivenOptions} :
    given.savedText? = Option.none ↔ given.HasLargeInteger := by
  rw [savedText?, Toml.tableText?, Option.map_eq_none_iff, option_mapM_eq_none_iff]
  constructor
  · intro h
    obtain ⟨entry, hmem, hnone⟩ := h
    obtain ⟨o, value, hvalue, rfl⟩ := mem_toToml.mp hmem
    exact ⟨o, value, hvalue,
      FieldKind.valueText?_toToml_eq_none_iff.mp (Option.map_eq_none_iff.mp hnone)⟩
  · intro h
    obtain ⟨o, value, hvalue, hlarge⟩ := h
    exact ⟨_, mem_toToml.mpr ⟨o, value, hvalue, rfl⟩,
      Option.map_eq_none_iff.mpr (FieldKind.valueText?_toToml_eq_none_iff.mpr hlarge)⟩

end GivenOptions

namespace Command

variable {α β : Type} {s t u : Session} {error : CommandError}

/-! ## Errors of the parts of a command -/

theorem run_bind_eq_error_iff {x : Action α} {f : α → Action β} :
    (x >>= f).run s = (.error error, u) ↔
      x.run s = (.error error, u) ∨
        ∃ a t, x.run s = (.ok a, t) ∧ (f a).run t = (.error error, u) := by
  rw [run_bind]
  rcases x.run s with ⟨found | a, t⟩
  · constructor
    · intro h
      cases h
      exact .inl rfl
    · intro h
      rcases h with h | ⟨_, _, h, -⟩
      · cases h
        rfl
      · cases h
  · constructor
    · exact fun h => .inr ⟨a, t, rfl, h⟩
    · intro h
      rcases h with h | ⟨_, _, h, hrest⟩
      · cases h
      · cases h
        exact hrest

/-- An action that does not fail for a given cause. -/
def Avoids (error : CommandError) (x : Action α) : Prop := ∀ s, (x.run s).1 ≠ .error error

namespace Avoids

theorem pure (a : α) : Avoids error (Pure.pure a : Action α) := by
  intro s hs
  cases hs

theorem throw {other : CommandError} (hne : other ≠ error) :
    Avoids error (MonadExcept.throw other : Action α) := by
  intro s hs
  exact hne (Except.error.inj hs)

theorem bind {x : Action α} {f : α → Action β} (hx : Avoids error x)
    (hf : ∀ a, Avoids error (f a)) : Avoids error (x >>= f) := by
  intro s hs
  rcases run_bind_eq_error_iff.mp (Prod.ext hs rfl) with hfirst | ⟨a, t, -, hsecond⟩
  · exact hx s (congrArg Prod.fst hfirst)
  · exact hf a t (congrArg Prod.fst hsecond)

theorem lift (action : StateM Session α) : Avoids error (ExceptT.lift action : Action α) := by
  intro s hs
  cases hs

theorem allowed {ε : Type} {toError : ε → CommandError} (hne : ∀ fault, toError fault ≠ error)
    (action : StateM Session (Except ε α)) :
    Avoids error (Command.allowed toError action : Action α) := by
  intro s hs
  rw [run_allowed] at hs
  cases haction : (action s).1 with
  | ok a =>
      rw [haction] at hs
      cases hs
  | error fault =>
      rw [haction] at hs
      exact hne fault (Except.error.inj hs)

theorem forM {f : α → Action Unit} (hf : ∀ a, Avoids error (f a)) (items : List α) :
    Avoids error (items.forM f) := by
  induction items with
  | nil => exact pure ()
  | cons item items ih => exact (hf item).bind fun _ => ih

theorem info (message : String) : Avoids error (Command.info message : Action Unit) := lift _

theorem warn (message : String) : Avoids error (Command.warn message : Action Unit) := lift _

end Avoids

/-- What remains to be done once the options are there and have been saved. -/
def generateFrom (isDryRun : Bool) (given : GivenOptions) : Action Unit := do
  let p ← plan given
  p.messages.forM info
  if isDryRun then info "Dry run -- exiting now." else p.execute

/-- Only saving options fails because they cannot be saved. -/
theorem avoids_generateFrom (isDryRun : Bool) (given : GivenOptions) :
    Avoids (.argumentFile .unsavable) (generateFrom isDryRun given) := by
  refine Avoids.bind ?_ fun p => Avoids.bind (.forM .info _) fun _ => ?_
  · unfold plan
    cases Config.ofSettings given.settings with
    | error fault => exact .throw (by simp)
    | ok config =>
        refine Avoids.bind (.forM .warn _) fun _ => ?_
        cases given.path with
        | error fault => exact Avoids.bind (.forM .warn _) fun _ => .throw (by simp)
        | ok path => exact .pure _
  · cases isDryRun with
    | true => exact .info _
    | false =>
        refine Avoids.bind (.lift _) fun noise => ?_
        cases p.config.generate (p.config.samplesOf noise) with
        | none => exact .throw (by simp)
        | some generated =>
            refine Avoids.bind (.allowed (fun fault => ?_) _) fun _ => .info _
            cases fault <;> simp [CommandError.ofWrite]

theorem avoids_mergeArguments (file : Option String) (given : GivenOptions) :
    Avoids (.argumentFile .unsavable) (mergeArguments file given) := by
  cases file with
  | none => exact .pure _
  | some path =>
      refine Avoids.bind (fun s hs => ?_) fun _ => .pure _
      rw [run_readArguments] at hs
      unfold argumentsOf at hs
      repeat' split at hs
      all_goals simp [throw, throwThe, MonadExceptOf.throw, pure, Except.pure] at hs

/-! ## Saving options that have no text -/

/-- The file of options that cannot be saved is made or emptied. -/
theorem run_saveArguments_unsavable_iff {path : String} {given : GivenOptions} :
    (saveArguments path given : Action Unit).run s = (.error (.argumentFile .unsavable), u) ↔
      ∃ location, s.tree.place path = .ok location ∧ given.HasLargeInteger ∧
        { s with tree := s.tree.setFile location (.bytes .empty) } = u := by
  have hallowed : ∀ action : StateM Session (Except PathFault Unit),
      Avoids (.argumentFile .unsavable) (allowed (fun _ => .host) action) :=
    Avoids.allowed fun _ => by simp
  rw [← GivenOptions.savedText?_eq_none_iff, saveArguments, run_bind_eq_error_iff]
  constructor
  · intro h
    rcases h with hcreate | ⟨_, t, hcreate, hfill⟩
    · exact absurd (congrArg Prod.fst hcreate) (hallowed _ s)
    · obtain ⟨location, hplace, rfl⟩ := put_eq_ok_iff.mp (run_allowed_eq_ok_iff.mp hcreate)
      cases htext : given.savedText? with
      | none =>
          rw [htext] at hfill
          exact ⟨location, hplace, rfl, congrArg Prod.snd hfill⟩
      | some text =>
          rw [htext] at hfill
          exact absurd (congrArg Prod.fst hfill) (hallowed _ _)
  · intro h
    obtain ⟨location, hplace, htext, rfl⟩ := h
    refine .inr ⟨(), _, run_allowed_eq_ok_iff.mpr (put_eq_ok_iff.mpr ⟨location, hplace, rfl⟩), ?_⟩
    rw [htext]
    rfl

/-- A run that generates an archive fails because its options cannot be saved if there is too large
an integer among those that are merged. -/
theorem run_generateArchive_unsavable_iff {isDryRun : Bool} {savePath file : Option String}
    {given : GivenOptions} :
    (generateArchive isDryRun savePath file given : Action Unit).run s =
        (.error (.argumentFile .unsavable), u) ↔
      ∃ path location found, savePath = some path ∧ s.tree.place path = .ok location ∧
        argumentsIn s.tree file = .ok found ∧ (given.orElse found).HasLargeInteger ∧
        { s with tree := s.tree.setFile location (.bytes .empty) } = u := by
  cases savePath with
  | none =>
      have hnever : Avoids (.argumentFile .unsavable)
          (mergeArguments file given >>= generateFrom isDryRun) :=
        (avoids_mergeArguments file given).bind (avoids_generateFrom isDryRun)
      constructor
      · intro h
        exact absurd (congrArg Prod.fst h) (hnever s)
      · intro h
        obtain ⟨_, _, _, hpath, -⟩ := h
        cases hpath
  | some path =>
      show (mergeArguments file given >>= fun merged => saveArguments path merged >>= fun _ =>
        generateFrom isDryRun merged : Action Unit).run s = _ ↔ _
      rw [run_bind_eq_error_iff]
      constructor
      · intro h
        rcases h with hmerge | ⟨merged, t, hmerge, h⟩
        · exact absurd (congrArg Prod.fst hmerge) (avoids_mergeArguments file given s)
        · obtain ⟨⟨found, hfound, rfl⟩, rfl⟩ := run_mergeArguments_eq_ok_iff.mp hmerge
          rcases run_bind_eq_error_iff.mp h with hsave | ⟨_, t, -, hrest⟩
          · obtain ⟨location, hplace, hlarge, hleft⟩ := run_saveArguments_unsavable_iff.mp hsave
            exact ⟨path, location, found, rfl, hplace, hfound, hlarge, hleft⟩
          · exact absurd (congrArg Prod.fst hrest) (avoids_generateFrom isDryRun _ t)
      · intro h
        obtain ⟨_, location, found, hpath, hplace, hfound, hlarge, hleft⟩ := h
        obtain rfl := Option.some.inj hpath
        exact .inr ⟨_, s, run_mergeArguments_eq_ok_iff.mpr ⟨⟨found, hfound, rfl⟩, rfl⟩,
          run_bind_eq_error_iff.mpr
            (.inl (run_saveArguments_unsavable_iff.mpr ⟨location, hplace, hlarge, hleft⟩))⟩

/-- What is logged when a run starts that generates an archive. -/
def generateStart : LogRecord := ⟨.info, s!"{programName} generate {programVersion}"⟩

variable {i : Invocation} {file : Option String} {given : GivenOptions}

theorem runOn_unsavable_iff (hcommand : i.command = .generate file given) (tree : FileTree)
    (noise : Nat → Binary64) :
    i.runOn tree noise = (.error (.argumentFile .unsavable), u) ↔
      ∃ path location found, i.savePath = some path ∧ tree.place path = .ok location ∧
        argumentsIn tree file = .ok found ∧ (given.orElse found).HasLargeInteger ∧
        ⟨tree.setFile location (.bytes .empty), [generateStart], [], noise⟩ = u := by
  obtain ⟨verbosity, isDryRun, savePath, _⟩ := i
  obtain rfl := hcommand
  have hstart : (info generateStart.message : Action Unit).run ⟨tree, [], [], noise⟩ =
      (.ok (), ⟨tree, [generateStart], [], noise⟩) := rfl
  show (info generateStart.message >>= fun _ => generateArchive isDryRun savePath file given >>=
    fun _ => info _ : Action Unit).run ⟨tree, [], [], noise⟩ = _ ↔ _
  rw [run_bind, hstart]
  dsimp only
  rw [run_bind_eq_error_iff, run_generateArchive_unsavable_iff]
  constructor
  · intro h
    rcases h with hgenerate | ⟨_, t, -, hend⟩
    · exact hgenerate
    · exact absurd (congrArg Prod.fst hend) (Avoids.info _ t)
  · intro h
    exact .inl h

/-- A run fails because its options cannot be saved exactly if there is a place for their file, the
options can be merged, and one of them is too large an integer. The file is then left empty: what it
held is lost, unless it was empty, and where there was none an empty one is left behind. Everything
else in the tree is as it was. -/
theorem unsavable_empties_file (i : Invocation) (file : Option String) (given : GivenOptions)
    (hcommand : i.command = .generate file given) (tree : FileTree) (noise : Nat → Binary64) :
    ((i.runOn tree noise).1 = .error (.argumentFile .unsavable) ↔
      ∃ path location found, i.savePath = some path ∧ tree.place path = .ok location ∧
        argumentsIn tree file = .ok found ∧ (given.orElse found).HasLargeInteger) ∧
    ((i.runOn tree noise).1 = .error (.argumentFile .unsavable) →
      ∃ path location, i.savePath = some path ∧ tree.place path = .ok location ∧
        (i.runOn tree noise).2 =
          ⟨tree.setFile location (.bytes .empty), [generateStart], [], noise⟩ ∧
        (i.runOn tree noise).2.tree.open? path = .ok (.bytes .empty) ∧
        ((i.runOn tree noise).2.tree.open? path = tree.open? path ↔
          tree.open? path = .ok (.bytes .empty)) ∧
        (i.runOn tree noise).2.tree.directories = tree.directories ∧
        ∀ other ≠ location, (i.runOn tree noise).2.tree.file? other = tree.file? other) := by
  have hresult : (i.runOn tree noise).1 = .error (.argumentFile .unsavable) ↔
      ∃ u, i.runOn tree noise = (.error (.argumentFile .unsavable), u) := by
    constructor
    · intro h
      exact ⟨_, Prod.ext h rfl⟩
    · intro h
      obtain ⟨u, h⟩ := h
      rw [h]
  rw [hresult]
  simp only [runOn_unsavable_iff hcommand]
  constructor
  · constructor
    · intro h
      obtain ⟨_, path, location, found, hpath, hplace, hfound, hlarge, -⟩ := h
      exact ⟨path, location, found, hpath, hplace, hfound, hlarge⟩
    · intro h
      obtain ⟨path, location, found, hpath, hplace, hfound, hlarge⟩ := h
      exact ⟨_, path, location, found, hpath, hplace, hfound, hlarge, rfl⟩
  · intro h
    obtain ⟨_, path, location, found, hpath, hplace, hfound, hlarge, -⟩ := h
    have hrun := (runOn_unsavable_iff hcommand tree noise).mpr
      ⟨path, location, found, hpath, hplace, hfound, hlarge, rfl⟩
    have hopen : (tree.setFile location (.bytes .empty)).open? path = .ok (.bytes .empty) :=
      FileTree.open?_setFile hplace
    rw [hrun]
    refine ⟨path, location, hpath, hplace, rfl, hopen, ?_, rfl, ?_⟩
    · rw [hopen, eq_comm]
    · intro other hne
      exact FileTree.file?_setFile_of_ne hne

/-! ## A scan with a large number -/

/-- A scan whose number is too large for a signed word of 64 bits. -/
def largeScan : GivenOptions where
  value?
    | .output => some "x.npz"
    | .scanId => some (9223372036854775808 : UInt64)
    | _ => none

/-- A command line that asks for such a scan and for its options to be saved. -/
def largeArguments : List String :=
  ["generate", "--dry-run", "-o", "x.npz", "--scan-id", "9223372036854775808", "--save-toml",
    "run.toml"]

/-- What is read after the name of the command. -/
def largeReading : CommandLine.Reading :=
  ⟨[("save-toml", ["run.toml"]), ("scan-id", ["9223372036854775808"]), ("output", ["x.npz"]),
    ("dry-run", [])], [], .free⟩

/-- What the command line asks for. -/
def largeInvocation : Invocation :=
  CommandLine.invocation .start largeReading (.generate none largeScan)

theorem givenOptions_largeReading : CommandLine.givenOptions largeReading = .ok largeScan := by
  rw [CommandLine.givenOptions_eq_ok_iff]
  intro o
  cases o with
  | output =>
      have hvalues : largeReading.values (CommandLine.optionName .output) = ["x.npz"] := by
        decide +kernel
      rw [if_pos (by decide +kernel), hvalues]
      rfl
  | scanId =>
      have hvalues : largeReading.values (CommandLine.optionName .scanId) =
          ["9223372036854775808"] := by decide +kernel
      rw [if_pos (by decide +kernel), hvalues]
      rfl
  | _ => exact if_neg (by decide +kernel)

theorem ofArguments_largeArguments : Invocation.ofArguments largeArguments = .ok largeInvocation := by
  have hmain : CommandLine.mainGrammar.run .start largeArguments =
      .ok (.start, some ("generate", largeArguments.tail)) := by decide +kernel
  have hafter : CommandLine.generateGrammar.run .start largeArguments.tail =
      .ok (largeReading, none) := by decide +kernel
  exact CommandLine.ofArguments_eq_ok hmain hafter (by decide +kernel) (by decide +kernel)
    givenOptions_largeReading

theorem savePath_largeInvocation : largeInvocation.savePath = some "run.toml" := by decide +kernel

theorem place_oneFile (text : String) : (oneFile text).tree.place "run.toml" = .ok ["run.toml"] :=
  FileTree.place_setFile_eq_ok_iff.mpr (by decide +kernel)

theorem hasLargeInteger_largeScan : (largeScan.orElse .none).HasLargeInteger :=
  ⟨.scanId, (9223372036854775808 : UInt64), rfl, show 2 ^ 63 ≤ UInt64.toNat _ by decide⟩

/-- The file of the options of a scan with too large a number is emptied. -/
theorem unsavable_largeScan :
    largeInvocation.command = .generate none largeScan ∧
      Invocation.ofArguments largeArguments = .ok largeInvocation ∧
      (largeInvocation.runOn (oneFile "nchan = 8\n").tree fun _ => .zero).1 =
        .error (.argumentFile .unsavable) ∧
      (largeInvocation.runOn (oneFile "nchan = 8\n").tree fun _ => .zero).2.tree.open? "run.toml" =
        .ok (.bytes .empty) := by
  obtain ⟨hcause, hleft⟩ := unsavable_empties_file largeInvocation none largeScan rfl
    (oneFile "nchan = 8\n").tree fun _ => .zero
  have hfails := hcause.mpr ⟨"run.toml", ["run.toml"], .none, savePath_largeInvocation,
    place_oneFile _, rfl, hasLargeInteger_largeScan⟩
  obtain ⟨path, location, hpath, hplace, -, hopen, -⟩ := hleft hfails
  obtain rfl := Option.some.inj (savePath_largeInvocation.symm.trans hpath)
  exact ⟨rfl, ofArguments_largeArguments, hfails, hopen⟩

/-- A run that cannot save its options does not leave the old file of options alone. -/
theorem unsavable_loses_options :
    ¬ ∀ (i : Invocation) (path : String) (tree : FileTree) (noise : Nat → Binary64),
      i.savePath = some path → (i.runOn tree noise).1 = .error (.argumentFile .unsavable) →
        (i.runOn tree noise).2.tree.open? path = tree.open? path := by
  intro halone
  have hcommand : largeInvocation.command = .generate none largeScan := rfl
  have hrun := (runOn_unsavable_iff hcommand (oneFile "nchan = 8\n").tree fun _ => .zero).mpr
    ⟨"run.toml", ["run.toml"], .none, savePath_largeInvocation, place_oneFile _, rfl,
      hasLargeInteger_largeScan, rfl⟩
  have hsame := halone largeInvocation "run.toml" (oneFile "nchan = 8\n").tree (fun _ => .zero)
    savePath_largeInvocation (by rw [hrun])
  rw [hrun, FileTree.open?_setFile (place_oneFile _), open?_oneFile] at hsame
  have hsize := congrArg ByteArray.size (Contents.bytes.inj (Except.ok.inj hsame))
  exact absurd hsize (by decide)

end Command

end VoltageStats
