import Mathlib
import VoltageStats.Proofs.Checked
import VoltageStats.Proofs.Path
import VoltageStats.StatPath

/-!
# Names of archives read back

A name is read from the end of a text: the ending, a number, an underscore, a number and an
underscore, and all that is left before them is the start of the scan. No number has an underscore
in it, so there is only one way to divide a text like this (`ArchiveName.ofText?_eq_some_iff`),
however many underscores and digits the start of the scan has. A path has a name exactly if its last
component can be divided like this, and is refused otherwise (`ArchiveName.ofPath_accepts`). The
path of an archive leads back to its name exactly if that start can be part of a file name
(`ScanDirectory.path_parses_back`).
-/

namespace VoltageStats

namespace ArchiveName

/-! ## Numbers -/

/-- Some digits, which may start with zeros, write a number. -/
structure Writes (digits : List Char) (n : UInt64) : Prop where
  ne_nil : digits ≠ []
  isDigit : ∀ c ∈ digits, c.isDigit
  value_eq : Literal.digitsValue digits = n.toNat

variable {digits before reversed : List Char} {n : UInt64}

theorem natural?_eq_some_iff {value : Nat} :
    Literal.natural? digits = some value ↔
      digits ≠ [] ∧ (∀ c ∈ digits, c.isDigit) ∧ Literal.digitsValue digits = value := by
  rw [Literal.natural?]
  split <;> simp_all

theorem writes_iff : Writes digits n ↔ Literal.natural? digits = some n.toNat := by
  rw [natural?_eq_some_iff]
  exact ⟨fun h => ⟨h.ne_nil, h.isDigit, h.value_eq⟩, fun h => ⟨h.1, h.2.1, h.2.2⟩⟩

/-- The zeros in front of a number do not change it. -/
theorem writes_padded (width : Nat) (n : UInt64) : Writes (padded width n).toList n := by
  have hdigits : ∀ c ∈ Nat.toDigits 10 n.toNat, c.isDigit := fun c hc =>
    Nat.isDigit_of_mem_toDigits (by decide) (by decide) hc
  rw [padded, String.toList_ofList]
  constructor
  · simp [Nat.toDigits_ne_nil]
  · intro c hc
    rcases List.mem_append.mp hc with hzero | hdigit
    · rw [List.eq_of_mem_replicate hzero]
      decide
    · exact hdigits c hdigit
  · show Nat.ofDigitChars 10 _ 0 = _
    rw [Nat.ofDigitChars_append, Nat.ofDigitChars_replicate_zero, Nat.mul_zero,
      Nat.ofDigitChars_ten_toDigits]

/-- What ends at the first underscore is followed by it. -/
theorem eq_takeWhile_append {c : Char}
    (h : reversed.drop (reversed.takeWhile (· ≠ '_')).length = c :: before) :
    reversed = reversed.takeWhile (· ≠ '_') ++ '_' :: before := by
  induction reversed with
  | nil => cases h
  | cons d reversed ih =>
      by_cases hd : d = '_'
      · subst hd
        rw [List.takeWhile_cons_of_neg (by simp)] at h ⊢
        rw [(List.cons.inj h).2, List.nil_append]
      · rw [List.takeWhile_cons_of_pos (by simpa using hd)] at h ⊢
        exact congrArg (d :: ·) (ih h)

theorem takeWhile_digits (hdigits : ∀ c ∈ digits, c.isDigit) :
    (digits.reverse ++ '_' :: before).takeWhile (· ≠ '_') = digits.reverse := by
  rw [List.takeWhile_append_of_pos, List.takeWhile_cons_of_neg (by simp), List.append_nil]
  intro c hc
  rw [decide_eq_true_eq]
  rintro rfl
  exact absurd (hdigits _ (List.mem_reverse.mp hc)) (by decide)

/-- The last number of a text is what follows its last underscore, if that is a number in range. -/
theorem lastNumber?_eq_some_iff :
    lastNumber? reversed = some (n, before) ↔
      ∃ digits, Writes digits n ∧ reversed = digits.reverse ++ '_' :: before := by
  constructor
  · intro h
    obtain ⟨value, hvalue, h⟩ := Option.bind_eq_some_iff.mp h
    split at h
    next c rest hdrop =>
      split at h
      next hlt =>
        obtain ⟨rfl, rfl⟩ := Prod.mk.inj (Option.some.inj h)
        rw [← UInt64.toNat_ofNat_of_lt' hlt] at hvalue
        refine ⟨_, writes_iff.mpr hvalue, ?_⟩
        rw [List.reverse_reverse]
        exact eq_takeWhile_append hdrop
      next => cases h
    next => cases h
  · intro h
    obtain ⟨digits, hdigits, rfl⟩ := h
    rw [lastNumber?, takeWhile_digits hdigits.isDigit]
    simp [writes_iff.mp hdigits, n.toNat_lt]

/-! ## Names -/

variable {name : ArchiveName} {text path : String}

/-- A text has an ending exactly if it starts with it in reverse. -/
theorem take_reverse_eq_iff {chars ending : List Char} :
    chars.reverse.take ending.reverse.length = ending.reverse ↔
      ∃ front, chars = front ++ ending := by
  rw [eq_comm, ← List.prefix_iff_eq_take, List.reverse_prefix, List.IsSuffix]
  exact exists_congr fun front => eq_comm

/-- How a name is read, from the end of the text. -/
theorem ofText?_eq_some_iff_steps :
    ofText? text = some name ↔
      text.toList.reverse.take ("." ++ archiveExtension).toList.reverse.length =
        ("." ++ archiveExtension).toList.reverse ∧
      ∃ rest before,
        lastNumber? (text.toList.reverse.drop ("." ++ archiveExtension).toList.reverse.length) =
          some (name.fileNumber, rest) ∧
        lastNumber? rest = some (name.obsOffset, before) ∧
        before ≠ [] ∧ '\n' ∉ before ∧ name.utcStart = String.ofList before.reverse := by
  unfold ofText?
  dsimp only
  generalize ("." ++ archiveExtension).toList.reverse = ending
  by_cases htake : text.toList.reverse.take ending.length = ending
  · rw [if_neg (not_not_intro htake), and_iff_right htake]
    constructor
    · intro h
      obtain ⟨⟨fileNumber, rest⟩, hrest, h⟩ := Option.bind_eq_some_iff.mp h
      obtain ⟨⟨obsOffset, before⟩, hbefore, h⟩ := Option.bind_eq_some_iff.mp h
      dsimp only at h
      split at h
      next => cases h
      next hplain =>
        obtain rfl := Option.some.inj h
        have hplain : before ≠ [] ∧ '\n' ∉ before := by simpa using hplain
        exact ⟨rest, before, hrest, hbefore, hplain.1, hplain.2, rfl⟩
    · intro h
      obtain ⟨rest, before, hrest, hbefore, hne, hline, hstart⟩ := h
      have hplain : ¬(decide (before.reverse = []) || before.reverse.contains '\n') = true := by
        simp [hne, hline]
      simp only [hrest, hbefore, Option.bind_eq_bind, Option.bind_some, if_neg hplain, ← hstart]
      rfl
  · rw [if_pos htake]
    exact iff_of_false (by rintro ⟨⟩) fun h => htake h.1

/-- A text is that of a name exactly if it is the start of the scan, which is not empty and has no
line break in it, and two numbers after underscores, with the ending after them. -/
theorem ofText?_eq_some_iff :
    ofText? text = some name ↔
      name.utcStart ≠ "" ∧ '\n' ∉ name.utcStart.toList ∧
      ∃ offset number, Writes offset name.obsOffset ∧ Writes number name.fileNumber ∧
        text = name.utcStart ++ "_" ++ String.ofList offset ++ "_" ++ String.ofList number ++ "." ++
          archiveExtension := by
  rw [ofText?_eq_some_iff_steps, take_reverse_eq_iff]
  constructor
  · intro h
    obtain ⟨⟨front, hfront⟩, rest, before, hlast, hbefore, hne, hline, hstart⟩ := h
    rw [hfront, List.reverse_append, List.drop_left] at hlast
    obtain ⟨number, hnumber, hreverse⟩ := lastNumber?_eq_some_iff.mp hlast
    obtain ⟨offset, hoffset, rfl⟩ := lastNumber?_eq_some_iff.mp hbefore
    have hchars : front = before.reverse ++ '_' :: (offset ++ '_' :: number) := by
      rw [← List.reverse_reverse front, hreverse]
      simp
    refine ⟨by simpa [hstart] using hne, by simpa [hstart] using hline, offset, number, hoffset,
      hnumber, ?_⟩
    rw [← String.toList_inj, hfront, hchars, hstart]
    simp
  · intro h
    obtain ⟨hne, hline, offset, number, hoffset, hnumber, rfl⟩ := h
    have hchars : (name.utcStart ++ "_" ++ String.ofList offset ++ "_" ++ String.ofList number ++
        "." ++ archiveExtension).toList =
        (name.utcStart.toList ++ '_' :: (offset ++ '_' :: number)) ++
          ("." ++ archiveExtension).toList := by
      simp
    refine ⟨⟨_, hchars⟩, offset.reverse ++ '_' :: name.utcStart.toList.reverse,
      name.utcStart.toList.reverse, ?_, ?_, by simpa using hne, by simpa using hline, by simp⟩
    · rw [hchars, List.reverse_append, List.drop_left]
      exact lastNumber?_eq_some_iff.mpr ⟨number, hnumber, by simp⟩
    · exact lastNumber?_eq_some_iff.mpr ⟨offset, hoffset, rfl⟩

/-- The start of a scan can stand in the name of a file and be read back. -/
structure Recoverable (name : ArchiveName) : Prop where
  ne_empty : name.utcStart ≠ ""
  slash_not_mem : '/' ∉ name.utcStart.toList
  newline_not_mem : '\n' ∉ name.utcStart.toList

theorem ofText?_text (h : name.Recoverable) : ofText? name.text = some name := by
  refine ofText?_eq_some_iff.mpr ⟨h.ne_empty, h.newline_not_mem, _, _,
    writes_padded 16 name.obsOffset, writes_padded 6 name.fileNumber, ?_⟩
  rw [String.ofList_toList, String.ofList_toList, text]

/-- The text of a name can be the name of a file exactly if there is no slash in it, and none comes
with the numbers. -/
theorem isFileName_text_iff : Path.IsFileName name.text ↔ '/' ∉ name.utcStart.toList := by
  have hdigits : ∀ width n, '/' ∉ (padded width n).toList := fun width n hmem =>
    absurd ((writes_padded width n).isDigit _ hmem) (by decide)
  have hchars : name.text.toList = name.utcStart.toList ++ '_' :: ((padded 16 name.obsOffset).toList
      ++ '_' :: ((padded 6 name.fileNumber).toList ++ ['.', 'n', 'p', 'z'])) := by
    simp [text, archiveExtension]
  have hunderscore : '_' ∈ name.text.toList := by simp [hchars]
  have hslash : '/' ∉ name.text.toList ↔ '/' ∉ name.utcStart.toList := by simp [hchars, hdigits]
  refine ⟨fun h => hslash.mp h.slash_not_mem, fun h => ⟨hslash.mpr h, ?_, ?_, ?_⟩⟩
  all_goals
    intro heq
    rw [heq] at hunderscore
    exact absurd hunderscore (by decide)

theorem ofPath_eq_ok_iff : ofPath path = .ok name ↔
    ∃ text, Path.fileName? path = some text ∧ ofText? text = some name := by
  unfold ofPath
  split
  next found h =>
    rw [Except.ok.injEq, ← Option.bind_eq_some_iff]
    exact ⟨fun heq => heq ▸ h, fun h' => Option.some.inj (h.symm.trans h')⟩
  next h =>
    rw [← Option.bind_eq_some_iff]
    exact iff_of_false (by rintro ⟨⟩) fun h' => Option.some_ne_none _ (h'.symm.trans h)

/-- What is read from a path can be read back from a path. -/
theorem recoverable_of_ofPath (h : ofPath path = .ok name) : name.Recoverable := by
  obtain ⟨text, hfile, htext⟩ := ofPath_eq_ok_iff.mp h
  obtain ⟨hne, hline, offset, number, -, -, heq⟩ := ofText?_eq_some_iff.mp htext
  refine ⟨hne, fun hmem => (Path.isFileName_of_fileName? hfile).slash_not_mem ?_, hline⟩
  simp [heq, hmem]

/-- What has no name is refused, and the path is told. -/
theorem ofPath_cases (path : String) :
    (∃ name, ofPath path = .ok name) ∨ ofPath path = .error (.unparseable path) := by
  unfold ofPath
  split
  next name h => exact .inl ⟨name, rfl⟩
  next h => exact .inr rfl

/-- There is only one last separator. -/
theorem append_separator_inj {c : Char} {before before' after after' : List Char}
    (hafter : c ∉ after) (hafter' : c ∉ after')
    (h : before ++ c :: after = before' ++ c :: after') : before = before' ∧ after = after' := by
  induction before generalizing before' with
  | nil =>
      cases before' with
      | nil => exact ⟨rfl, (List.cons.inj h).2⟩
      | cons d before' =>
          rw [(List.cons.inj h).2] at hafter
          exact absurd (List.mem_append_right _ List.mem_cons_self) hafter
  | cons d before ih =>
      cases before' with
      | nil =>
          rw [← (List.cons.inj h).2] at hafter'
          exact absurd (List.mem_append_right _ List.mem_cons_self) hafter'
      | cons d' before' =>
          obtain ⟨hd, hrest⟩ := List.cons.inj h
          obtain ⟨hbefore, heq⟩ := ih hrest
          exact ⟨congrArg₂ List.cons hd hbefore, heq⟩

theorem Writes.underscore_not_mem (h : Writes digits n) : '_' ∉ digits := fun hmem =>
  absurd (h.isDigit _ hmem) (by decide)

/-- The start of a scan and two parts without underscores are told apart in one way. -/
theorem parts_unique {utcStart utcStart' : String} {offset offset' number number' : List Char}
    (hoffset : '_' ∉ offset) (hoffset' : '_' ∉ offset') (hnumber : '_' ∉ number)
    (hnumber' : '_' ∉ number')
    (h : utcStart ++ "_" ++ String.ofList offset ++ "_" ++ String.ofList number ++ ".npz" =
      utcStart' ++ "_" ++ String.ofList offset' ++ "_" ++ String.ofList number' ++ ".npz") :
    utcStart = utcStart' ∧ offset = offset' ∧ number = number' := by
  rw [← String.toList_inj] at h
  have hchars : (utcStart.toList ++ '_' :: offset) ++ '_' :: (number ++ ['.', 'n', 'p', 'z']) =
      (utcStart'.toList ++ '_' :: offset') ++ '_' :: (number' ++ ['.', 'n', 'p', 'z']) := by
    simpa using h
  obtain ⟨hfront, hback⟩ :=
    append_separator_inj (by simpa using hnumber) (by simpa using hnumber') hchars
  obtain ⟨hstart, rfl⟩ := append_separator_inj hoffset hoffset' hfront
  exact ⟨String.toList_inj.mp hstart, rfl, List.append_cancel_right hback⟩

/-- The paths whose last component is the text of a name are those that are read, and all others are
refused. It does not matter which underscores and digits there are in the start of the scan: the two
numbers are what follows the last two underscores. If one of them has another character than the ten
digits, or is too large, then the path is refused. -/
theorem ofPath_accepts :
    (∀ (path : String) (name : ArchiveName), ofPath path = .ok name ↔
      name.utcStart ≠ "" ∧ '\n' ∉ name.utcStart.toList ∧
      ∃ offset number, Writes offset name.obsOffset ∧ Writes number name.fileNumber ∧
        Path.fileName? path = some (name.utcStart ++ "_" ++ String.ofList offset ++ "_" ++
          String.ofList number ++ ".npz")) ∧
    (∀ path : String, (∃ name, ofPath path = .ok name) ∨
      ofPath path = .error (.unparseable path)) ∧
    ∀ (path utcStart : String) (offset number : List Char),
      '_' ∉ offset → '_' ∉ number →
      Path.fileName? path = some (utcStart ++ "_" ++ String.ofList offset ++ "_" ++
        String.ofList number ++ ".npz") →
      ((∃ c ∈ offset ++ number, ¬ c.isDigit) ∨ 2 ^ 64 ≤ Literal.digitsValue offset ∨
        2 ^ 64 ≤ Literal.digitsValue number) →
      ofPath path = .error (.unparseable path) := by
  have hread : ∀ (path : String) (name : ArchiveName), ofPath path = .ok name ↔
      name.utcStart ≠ "" ∧ '\n' ∉ name.utcStart.toList ∧
      ∃ offset number, Writes offset name.obsOffset ∧ Writes number name.fileNumber ∧
        Path.fileName? path = some (name.utcStart ++ "_" ++ String.ofList offset ++ "_" ++
          String.ofList number ++ ".npz") := by
    intro path name
    have hending : ∀ front : String, front ++ "." ++ archiveExtension = front ++ ".npz" :=
      fun front => String.append_assoc
    rw [ofPath_eq_ok_iff]
    constructor
    · rintro ⟨text, hfile, htext⟩
      obtain ⟨hne, hline, offset, number, hoffset, hnumber, rfl⟩ := ofText?_eq_some_iff.mp htext
      exact ⟨hne, hline, offset, number, hoffset, hnumber, by rw [hfile, hending]⟩
    · rintro ⟨hne, hline, offset, number, hoffset, hnumber, hfile⟩
      refine ⟨_, hfile, ofText?_eq_some_iff.mpr ⟨hne, hline, offset, number, hoffset, hnumber, ?_⟩⟩
      rw [hending]
  refine ⟨hread, ofPath_cases, fun path utcStart offset number hoffset hnumber hfile hbad => ?_⟩
  refine (ofPath_cases path).resolve_left ?_
  rintro ⟨name, hname⟩
  obtain ⟨-, -, offset', number', hoffset', hnumber', hfile'⟩ := (hread path name).mp hname
  obtain ⟨-, rfl, rfl⟩ := parts_unique hoffset hoffset'.underscore_not_mem hnumber
    hnumber'.underscore_not_mem (Option.some.inj (hfile.symm.trans hfile'))
  rcases hbad with ⟨c, hc, hdigit⟩ | hlarge | hlarge
  · rcases List.mem_append.mp hc with hc | hc
    · exact hdigit (hoffset'.isDigit c hc)
    · exact hdigit (hnumber'.isDigit c hc)
  · rw [hoffset'.value_eq] at hlarge
    exact absurd name.obsOffset.toNat_lt (Nat.not_lt.mpr hlarge)
  · rw [hnumber'.value_eq] at hlarge
    exact absurd name.fileNumber.toNat_lt (Nat.not_lt.mpr hlarge)

/-- Digits and underscores in the start of a scan are left there. Arabic digits are no part of a
number, and one more than the largest number is none. -/
theorem ofPath_accepts_digits :
    ofPath "/data/2023_10_007_18446744073709551615.npz/." =
        .ok ⟨"2023_10", 7, 18446744073709551615⟩ ∧
      ofPath "2023_٠٠٧_1.npz" = .error (.unparseable "2023_٠٠٧_1.npz") ∧
      ofPath "2023_7_18446744073709551616.npz" =
        .error (.unparseable "2023_7_18446744073709551616.npz") := by
  refine ⟨(ofPath_accepts.1 _ _).mpr ?_, ?_, ?_⟩
  · refine ⟨by decide, by decide, "007".toList, "18446744073709551615".toList, ?_, ?_, ?_⟩
    · exact writes_iff.mpr (by decide +kernel)
    · exact writes_iff.mpr (by decide +kernel)
    · decide +kernel
  · exact ofPath_accepts.2.2 _ "2023" "٠٠٧".toList ['1'] (by decide) (by decide) (by decide +kernel)
      (.inl ⟨'٠', by decide, by decide⟩)
  · exact ofPath_accepts.2.2 _ "2023" ['7'] "18446744073709551616".toList (by decide) (by decide)
      (by decide +kernel) (.inr (.inr (by decide +kernel)))

end ArchiveName

namespace ScanDirectory

variable {d : ScanDirectory} {name : ArchiveName} {path : String}

/-- A path ends with the text of the name that it is built for. -/
theorem exists_join_of_path (h : d.path name = .ok path) :
    ∃ directory, path = Path.join directory name.text := by
  unfold ScanDirectory.path at h
  simp only [except_bind_eq_ok_iff, except_pure_eq_ok_iff] at h
  obtain ⟨basePath, -, ebId, -, subsystem, -, scanId, -, rfl⟩ := h
  exact ⟨["product", ebId, subsystem, scanId, "monitoring_stats"].foldl Path.join basePath, rfl⟩

theorem fileName?_of_path (h : d.path name = .ok path) (hname : name.Recoverable) :
    Path.fileName? path = some name.text := by
  obtain ⟨directory, rfl⟩ := exists_join_of_path h
  exact Path.fileName?_join (ArchiveName.isFileName_text_iff.mpr hname.slash_not_mem) directory

/-- The path of an archive leads back to the name that it is built for exactly if the start of the
scan is not empty and has neither a slash nor a line break in it. So archives with such names have
different file names, wherever they are kept. -/
theorem path_parses_back :
    (∀ (d : ScanDirectory) (name : ArchiveName) (path : String), d.path name = .ok path →
      (ArchiveName.ofPath path = .ok name ↔
        name.utcStart ≠ "" ∧ '/' ∉ name.utcStart.toList ∧ '\n' ∉ name.utcStart.toList)) ∧
    (∀ (d d' : ScanDirectory) (name name' : ArchiveName) (path path' : String),
      d.path name = .ok path → d'.path name' = .ok path' →
      name.Recoverable → name'.Recoverable →
      Path.fileName? path = Path.fileName? path' → name = name') := by
  have hback : ∀ {d : ScanDirectory} {name : ArchiveName} {path : String},
      d.path name = .ok path → name.Recoverable → ArchiveName.ofPath path = .ok name :=
    fun hpath hname => ArchiveName.ofPath_eq_ok_iff.mpr
      ⟨_, fileName?_of_path hpath hname, ArchiveName.ofText?_text hname⟩
  refine ⟨fun d name path hpath => ⟨fun hread => ?_, fun hname => ?_⟩, ?_⟩
  · have hname := ArchiveName.recoverable_of_ofPath hread
    exact ⟨hname.ne_empty, hname.slash_not_mem, hname.newline_not_mem⟩
  · exact hback hpath ⟨hname.1, hname.2.1, hname.2.2⟩
  · intro d d' name name' path path' hpath hpath' hname hname' heq
    rw [fileName?_of_path hpath hname, fileName?_of_path hpath' hname'] at heq
    have hread := ArchiveName.ofText?_text hname
    rw [Option.some.inj heq, ArchiveName.ofText?_text hname'] at hread
    exact (Option.some.inj hread).symm

/-- A start of a scan that looks like a name with two numbers itself is read back, and one with a
slash in it is not. -/
theorem path_parses_back_numbers :
    let d : ScanDirectory := ⟨some "/data", some "eb-m001", some "pst-low", some "7"⟩
    let name : ArchiveName := ⟨"2023_10_23", 18446744073709551615, 3⟩
    let path := "/data/product/eb-m001/pst-low/7/monitoring_stats/" ++
      "2023_10_23_18446744073709551615_000003.npz"
    (d.path name = .ok path ∧ name.Recoverable ∧ ArchiveName.ofPath path = .ok name ∧
      ∀ name' : ArchiveName, d.path name' = .ok path → name'.Recoverable → name' = name) ∧
    (d.path ⟨"2023/10", 0, 1⟩ = .ok ("/data/product/eb-m001/pst-low/7/monitoring_stats/" ++
        "2023/10_0000000000000000_000001.npz") ∧
      ArchiveName.ofPath ("/data/product/eb-m001/pst-low/7/monitoring_stats/" ++
        "2023/10_0000000000000000_000001.npz") ≠ .ok ⟨"2023/10", 0, 1⟩) := by
  intro d name path
  have hpath : d.path name = .ok path := by decide +kernel
  have hname : name.Recoverable := ⟨by decide, by decide, by decide⟩
  have hslash : d.path ⟨"2023/10", 0, 1⟩ =
      .ok ("/data/product/eb-m001/pst-low/7/monitoring_stats/" ++
        "2023/10_0000000000000000_000001.npz") := by decide +kernel
  refine ⟨⟨hpath, hname, ?_, fun name' hpath' hname' => ?_⟩, hslash, fun hread => ?_⟩
  · exact (path_parses_back.1 d name path hpath).mpr
      ⟨hname.ne_empty, hname.slash_not_mem, hname.newline_not_mem⟩
  · exact path_parses_back.2 d d name' name path path hpath' hpath hname' hname rfl
  · have hplain := (path_parses_back.1 d _ _ hslash).mp hread
    exact absurd hplain.2.1 (by decide)

end ScanDirectory

end VoltageStats
