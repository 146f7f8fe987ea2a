import Mathlib
import VoltageStats.Path

/-!
# Components of paths

A path that is continued by a file name has one component more, the file name
(`Path.components_join`), and no file name has a slash in it (`Path.isFileName_of_fileName?`). So a
path that is continued by some names leads down through one directory for each of them exactly if
all of them are file names (`Path.descends_foldl_join_iff`).
-/

namespace VoltageStats.Path

variable {before after part : List Char} {path name : String}

/-! ## Parts between slashes -/

/-- There is always a part, if only an empty one. -/
theorem splitSlashes_ne_nil (chars : List Char) : splitSlashes chars ≠ [] := by
  cases chars with
  | nil => simp [splitSlashes]
  | cons c rest =>
      rw [splitSlashes]
      split
      · simp
      · split <;> simp

theorem splitSlashes_cons_slash (rest : List Char) :
    splitSlashes ('/' :: rest) = [] :: splitSlashes rest := by
  rw [splitSlashes]
  split
  next h => exact absurd h (splitSlashes_ne_nil rest)
  next h => rw [if_pos rfl, h]

/-- A character that is no slash belongs to the first part. -/
theorem splitSlashes_cons {c : Char} {parts : List (List Char)} (hc : c ≠ '/')
    (h : splitSlashes after = part :: parts) :
    splitSlashes (c :: after) = (c :: part) :: parts := by
  rw [splitSlashes, h]
  exact if_neg hc

/-- What is on either side of a slash is divided by itself. -/
theorem splitSlashes_append (before after : List Char) :
    splitSlashes (before ++ '/' :: after) = splitSlashes before ++ splitSlashes after := by
  induction before with
  | nil => exact splitSlashes_cons_slash after
  | cons c before ih =>
      by_cases hc : c = '/'
      · subst hc
        rw [List.cons_append, splitSlashes_cons_slash, ih, splitSlashes_cons_slash,
          List.cons_append]
      · obtain ⟨part, parts, h⟩ := List.exists_cons_of_ne_nil (splitSlashes_ne_nil before)
        rw [h, List.cons_append] at ih
        rw [List.cons_append, splitSlashes_cons hc ih, splitSlashes_cons hc h, List.cons_append]

theorem splitSlashes_of_not_mem (h : '/' ∉ part) : splitSlashes part = [part] := by
  induction part with
  | nil => rfl
  | cons c part ih =>
      rw [List.mem_cons, not_or] at h
      exact splitSlashes_cons (Ne.symm h.1) (ih h.2)

theorem not_mem_of_mem_splitSlashes {chars : List Char} (h : part ∈ splitSlashes chars) :
    '/' ∉ part := by
  induction chars generalizing part with
  | nil => simp_all [splitSlashes]
  | cons c chars ih =>
      by_cases hc : c = '/'
      · subst hc
        rw [splitSlashes_cons_slash, List.mem_cons] at h
        rcases h with rfl | h
        · exact List.not_mem_nil
        · exact ih h
      · obtain ⟨first, parts, hsplit⟩ := List.exists_cons_of_ne_nil (splitSlashes_ne_nil chars)
        rw [splitSlashes_cons hc hsplit, List.mem_cons] at h
        rcases h with rfl | h
        · have hfirst := ih (hsplit ▸ List.mem_cons_self)
          simp [Ne.symm hc, hfirst]
        · exact ih (hsplit ▸ List.mem_cons_of_mem first h)

/-! ## The last component -/

/-- A text that can be the name of a file. -/
structure IsFileName (name : String) : Prop where
  slash_not_mem : '/' ∉ name.toList
  ne_empty : name ≠ ""
  ne_dot : name ≠ "."
  ne_dots : name ≠ ".."

/-- A component is a file name, unless it leads to the directory above. -/
theorem isFileName_of_mem_components (h : name ∈ components path) (hdots : name ≠ "..") :
    IsFileName name := by
  have hmem := List.mem_filter.mp h
  obtain ⟨part, hpart, rfl⟩ := List.mem_map.mp hmem.1
  have hnot : String.ofList part ≠ "" ∧ String.ofList part ≠ "." := by simpa using hmem.2
  exact ⟨by simpa using not_mem_of_mem_splitSlashes hpart, hnot.1, hnot.2, hdots⟩

theorem fileName?_eq_some_iff :
    fileName? path = some name ↔ (components path).getLast? = some name ∧ name ≠ ".." := by
  unfold fileName?
  split
  next last hlast =>
    rw [hlast]
    by_cases hdots : last = ".."
    · simpa [hdots] using Eq.symm
    · simp only [if_neg hdots, Option.some.injEq]
      constructor
      · rintro rfl
        exact ⟨rfl, hdots⟩
      · exact And.left
  next hnone => simp [hnone]

/-- What is found as a file name can be one. -/
theorem isFileName_of_fileName? (h : fileName? path = some name) : IsFileName name := by
  obtain ⟨hlast, hdots⟩ := fileName?_eq_some_iff.mp h
  exact isFileName_of_mem_components (List.mem_of_getLast? hlast) hdots

/-- What is behind the last slash is the file name, if it can be one. -/
theorem fileName?_of_components (front : List String) (hname : IsFileName name)
    (h : components path = front ++ [name]) : fileName? path = some name :=
  fileName?_eq_some_iff.mpr ⟨by rw [h, List.getLast?_concat], hname.ne_dots⟩

theorem components_of_isFileName (hname : IsFileName name) : components name = [name] := by
  simp [components, segments, splitSlashes_of_not_mem hname.slash_not_mem, hname.ne_empty,
    hname.ne_dot]

/-- A slash divides the components before it from those after it. -/
theorem components_append (path name : String) :
    components (path ++ "/" ++ name) = components path ++ components name := by
  have hchars : (path ++ "/" ++ name).toList = path.toList ++ '/' :: name.toList := by simp
  rw [components, segments, hchars, splitSlashes_append, List.map_append, List.filter_append]
  rfl

/-- A path that ends with a slash has no further component after it. -/
theorem components_of_getLast? (hlast : path.toList.getLast? = some '/') (name : String) :
    components (path ++ name) = components path ++ components name := by
  obtain ⟨chars, hchars⟩ := List.getLast?_eq_some_iff.mp hlast
  have hjoin : (path ++ name).toList = chars ++ '/' :: name.toList := by simp [hchars]
  rw [components, components, components, segments, segments, segments, hjoin, hchars,
    splitSlashes_append, splitSlashes_append]
  simp [splitSlashes]

/-! ## Continued paths -/

theorem isAbsolute_of_isFileName (hname : IsFileName name) : isAbsolute name = false := by
  rw [isAbsolute, decide_eq_false_iff_not]
  exact fun h => hname.slash_not_mem (List.mem_of_mem_head? h)

/-- A path that is continued by a file name has one component more. -/
theorem components_join (hname : IsFileName name) (path : String) :
    components (join path name) = components path ++ [name] := by
  have hcomponents := components_of_isFileName hname
  rw [join, isAbsolute_of_isFileName hname, if_neg Bool.false_ne_true]
  split
  next hlast =>
    obtain rfl : path = "" := by simpa using hlast
    exact hcomponents
  next hlast =>
    split
    next hslash =>
      subst hslash
      rw [components_of_getLast? hlast, hcomponents]
    next => rw [components_append, hcomponents]

/-- A path that is continued by a file name has that file name. -/
theorem fileName?_join (hname : IsFileName name) (path : String) :
    fileName? (join path name) = some name :=
  fileName?_of_components (components path) hname (components_join hname path)

/-- A path that is continued by a file name still starts as it did. -/
theorem prefix_join (hname : IsFileName name) (path : String) :
    path.toList <+: (join path name).toList := by
  rw [join, isAbsolute_of_isFileName hname, if_neg Bool.false_ne_true]
  split
  next hlast =>
    obtain rfl : path = "" := by simpa using hlast
    exact List.nil_prefix
  next => split <;> simp [List.append_assoc]

/-- A path leads from a base down through some names, one directory level for each. -/
structure Descends (base : String) (names : List String) (path : String) : Prop where
  starts : base.toList <+: path.toList
  components_eq : components path = components base ++ names
  dots_not_mem : ".." ∉ names

theorem descends_foldl_join {names : List String} (h : ∀ name ∈ names, IsFileName name)
    (base : String) : Descends base names (names.foldl join base) := by
  induction names generalizing base with
  | nil => exact ⟨List.prefix_refl _, (List.append_nil _).symm, List.not_mem_nil⟩
  | cons name names ih =>
      rw [List.forall_mem_cons] at h
      obtain ⟨hname, hnames⟩ := h
      obtain ⟨hstarts, hcomponents, hdots⟩ := ih hnames (join base name)
      refine ⟨(prefix_join hname base).trans hstarts, ?_, ?_⟩
      · rw [List.foldl_cons, hcomponents, components_join hname, List.append_assoc,
          List.singleton_append]
      · exact List.not_mem_cons_of_ne_of_not_mem hname.ne_dots.symm hdots

/-- A base that is continued by some names leads down through them exactly if they all can be the
names of files. -/
theorem descends_foldl_join_iff {names : List String} (base : String) :
    Descends base names (names.foldl join base) ↔ ∀ name ∈ names, IsFileName name := by
  refine ⟨fun h name hmem => ?_, fun h => descends_foldl_join h base⟩
  have hcomponent : name ∈ components (names.foldl join base) := by
    rw [h.components_eq]
    exact List.mem_append_right _ hmem
  exact isFileName_of_mem_components hcomponent fun hdots => h.dots_not_mem (hdots ▸ hmem)

end VoltageStats.Path
