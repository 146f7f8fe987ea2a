import VoltageStats.Proofs.Checked
import VoltageStats.Proofs.Toml.Text

/-!
# Values in TOML documents

Texts, numbers and truth values, and arrays of them, are read off the front of the characters that
write them (`reads_valueText`), if a comma, a bracket or the end of a line follows.
-/

namespace VoltageStats.Toml

variable {c : Char} {rest item : List Char}

/-- Whether characters cannot go on with a value. -/
def Ends (rest : List Char) : Prop := ∀ c ∈ rest.head?, c = '\n' ∨ c = ',' ∨ c = ']'

/-- Whether a character starts the text of a value without parts. -/
def Opens (c : Char) : Prop := c = '"' ∨ c = '\'' ∨ isWordChar c

/-- Some characters are read as a value, if there is at least some fuel and it is inside at most
some others. -/
structure Reads (need levels : Nat) (item : List Char) (value : Toml) : Prop where
  starts : ∃ c tail, item = c :: tail ∧ (c = '[' ∨ Opens c)
  value_eq : ∀ {fuel depth : Nat}, need ≤ fuel → levels ≤ depth → ∀ {rest}, Ends rest →
    value? fuel depth (item ++ rest) = some (value, rest)

/-! ## Values without parts -/

theorem Opens.ne (h : Opens c) {d : Char} (hdouble : d ≠ '"') (hsingle : d ≠ '\'')
    (hword : ¬ isWordChar d) : c ≠ d := by
  rintro rfl
  rcases h with h | h | h
  · exact hdouble h
  · exact hsingle h
  · exact hword h

/-- What starts neither an array nor a table is a text or a word. -/
theorem value?_opens (fuel depth : Nat) {tail : List Char} (h : Opens c) :
    value? (fuel + 1) depth (c :: tail) =
      if c = '"' ∨ c = '\'' then
        (text? (c :: tail)).map fun (chars, rest) => (.text (String.ofList chars), rest)
      else word? (c :: tail) := by
  have hbracket : c ≠ '[' := h.ne (by decide) (by decide) (by decide)
  have hbrace : c ≠ '\x7b' := h.ne (by decide) (by decide) (by decide)
  rw [value?]
  · simp
  · intro depth rest _ heq
    exact hbracket (List.cons.inj heq).1
  · intro depth rest _ heq
    exact hbrace (List.cons.inj heq).1

theorem word?_append {word : List Char} {value : Toml} (hword : ∀ c ∈ word, isWordChar c)
    (hvalue : wordValue? word = some value) (hrest : Ends rest) :
    word? (word ++ rest) = some (value, rest) := by
  have hspan : (word ++ rest).span isWordChar = (word, rest) := by
    refine span_append hword fun c hc => ?_
    rcases hrest c hc with rfl | rfl | rfl <;> decide
  rw [word?, hspan]
  dsimp only
  split
  next after =>
    have hblank := hrest ' ' rfl
    simp at hblank
  next => rw [hvalue]; rfl

theorem quoted_eq_cons (text : String) :
    ∃ c tail, (quoted text).toList = c :: tail ∧ (c = '"' ∨ c = '\'') := by
  unfold quoted
  dsimp only
  split_ifs <;> simp [String.toList_append]

theorem reads_text (text : String) : Reads 1 0 (quoted text).toList (.text text) := by
  obtain ⟨c, tail, hquoted, hc⟩ := quoted_eq_cons text
  have hopens : Opens c := hc.elim .inl fun h => .inr (.inl h)
  refine ⟨⟨c, tail, hquoted, .inr hopens⟩, fun {fuel} {depth} hfuel _ {rest} hrest => ?_⟩
  obtain ⟨fuel, rfl⟩ := Nat.exists_eq_add_of_le' hfuel
  have hnoquote : ∀ d ∈ rest.head?, d ≠ '"' ∧ d ≠ '\'' := by
    intro d hd
    rcases hrest d hd with rfl | rfl | rfl <;> decide
  have htext := text?_quoted text hnoquote
  rw [hquoted, List.cons_append] at htext ⊢
  rw [value?_opens fuel depth hopens, if_pos hc, htext]
  simp

theorem reads_word {word : List Char} {value : Toml} (hword : ∀ c ∈ word, isWordChar c)
    (hvalue : wordValue? word = some value) : Reads 1 0 word value := by
  have hne : word ≠ [] := by
    rintro rfl
    cases hvalue
  obtain ⟨c, tail, rfl⟩ := List.exists_cons_of_ne_nil hne
  have hc : isWordChar c := hword c List.mem_cons_self
  have hopens : Opens c := .inr (.inr hc)
  refine ⟨⟨c, tail, rfl, .inr hopens⟩, fun {fuel} {depth} hfuel _ {rest} hrest => ?_⟩
  obtain ⟨fuel, rfl⟩ := Nat.exists_eq_add_of_le' hfuel
  have hnoquote : ¬ (c = '"' ∨ c = '\'') := by
    rintro (rfl | rfl)
    · exact absurd hc (by decide)
    · exact absurd hc (by decide)
  rw [List.cons_append, value?_opens fuel depth hopens, if_neg hnoquote]
  exact word?_append hword hvalue hrest

/-- Whether a value has no parts, and texts can stand for it. A moment is only recognised. -/
def IsPlainValue : Toml → Prop
  | .text _ | .integer _ | .boolean _ => True
  | .real x => x.IsCanonical
  | _ => False

/-- A value without parts is read as it was written. -/
theorem reads_scalarText (value : Toml) {line : String} (hvalue : IsPlainValue value)
    (h : scalarText? value = some line) : Reads 1 0 line.toList value := by
  cases value with
  | text text =>
      obtain rfl := Option.some.inj h
      exact reads_text text
  | integer n =>
      obtain ⟨hinside, heq⟩ := Option.ite_none_right_eq_some.mp h
      obtain rfl := Option.some.inj heq
      rw [Bool.and_eq_true, decide_eq_true_eq, decide_eq_true_eq] at hinside
      exact reads_word (isWordChar_toString n) (wordValue?_integer hinside.1 hinside.2)
  | real x =>
      obtain rfl := Option.some.inj h
      exact reads_word (isWordChar_write64 x) (wordValue?_real hvalue)
  | boolean value =>
      obtain rfl := Option.some.inj h
      cases value with
      | true => exact reads_word (List.all_eq_true.mp rfl) rfl
      | false => exact reads_word (List.all_eq_true.mp rfl) rfl
  | moment _ => exact hvalue.elim
  | array _ => exact hvalue.elim
  | table _ _ => exact hvalue.elim
  | tables _ => exact hvalue.elim

/-! ## Arrays -/

theorem ne_of_starts {d : Char} (hc : c = '[' ∨ Opens c) (hbracket : d ≠ '[') (hdouble : d ≠ '"')
    (hsingle : d ≠ '\'') (hword : ¬ isWordChar d) : c ≠ d := by
  rintro rfl
  rcases hc with hc | hc
  · exact hbracket hc
  · exact hc.ne hdouble hsingle hword rfl

theorem not_isBlank_of_starts (hc : c = '[' ∨ Opens c) : ¬ isBlank c := by
  simp [isBlank, ne_of_starts hc (d := ' ') (by decide) (by decide) (by decide) (by decide),
    ne_of_starts hc (d := '\t') (by decide) (by decide) (by decide) (by decide)]

/-- No blank, comment or end of a line is in front of a value. -/
theorem skipLines_starts {tail : List Char} (hc : c = '[' ∨ Opens c) :
    skipLines false (c :: tail) = c :: tail := by
  have hne : ∀ d, d ≠ '[' → d ≠ '"' → d ≠ '\'' → ¬ isWordChar d → c ≠ d :=
    fun d => ne_of_starts hc
  unfold skipLines
  split
  next h => cases h
  next h =>
    have hline := hne '\n' (by decide) (by decide) (by decide) (by decide)
    exact absurd (List.cons.inj h).1 hline
  next h =>
    have hreturn := hne '\r' (by decide) (by decide) (by decide) (by decide)
    exact absurd (List.cons.inj h).1 hreturn
  next d tail' _ h =>
    obtain ⟨rfl, rfl⟩ := List.cons.inj h
    rw [if_neg Bool.false_ne_true, if_neg (not_isBlank_of_starts hc),
      if_neg (hne '#' (by decide) (by decide) (by decide) (by decide))]

theorem items?_blank (fuel depth : Nat) (input : List Char) :
    items? fuel depth (' ' :: input) = items? fuel depth input := by
  cases fuel with
  | zero => rfl
  | succ fuel =>
      have hskip : skipLines false (' ' :: input) = skipLines false input := rfl
      rw [items?, items?, hskip]

variable {value : Toml} {fuel depth : Nat}

/-- The items of an array that starts with a value. -/
theorem items?_reads (hreads : Reads 1 0 item value) (hfuel : 0 < fuel) (hrest : Ends rest) :
    items? (fuel + 1) depth (item ++ rest) =
      match skipLines false rest with
      | ',' :: rest => (items? fuel depth rest).map fun (items, rest) => (value :: items, rest)
      | ']' :: rest => some ([value], rest)
      | _ => none := by
  have hvalue : value? fuel depth (item ++ rest) = some (value, rest) :=
    hreads.value_eq hfuel (Nat.zero_le _) hrest
  obtain ⟨c, tail, rfl, hc⟩ := hreads.starts
  rw [List.cons_append] at hvalue ⊢
  rw [items?, skipLines_starts hc]
  split
  next heq =>
    obtain rfl := (List.cons.inj heq).1
    rcases hc with hc | hc
    · exact absurd hc (by decide)
    · exact absurd rfl (hc.ne (by decide) (by decide) (by decide))
  next =>
    rw [hvalue]
    simp only [Option.bind_eq_bind, Option.bind_some]
    rfl

/-- Items with a comma and a blank between them are read up to the closing bracket. -/
theorem items?_intercalate {items : List Toml} {texts : List String}
    (hreads : List.Forall₂ (fun item text => Reads 1 0 text.toList item) items texts)
    (hfuel : items.length < fuel) :
    items? fuel depth ((", ".intercalate texts).toList ++ ']' :: rest) = some (items, rest) := by
  induction hreads generalizing fuel with
  | nil =>
      obtain ⟨fuel, rfl⟩ := Nat.exists_eq_add_of_le' hfuel
      rfl
  | @cons value text items texts hvalue hreads ih =>
      obtain ⟨fuel, rfl⟩ := Nat.exists_eq_add_of_le' (Nat.zero_lt_of_lt hfuel)
      rw [List.length_cons] at hfuel
      -- The last item is followed by the bracket, every other one by a comma.
      cases hreads with
      | nil =>
          have hbracket : Ends (']' :: rest) := fun c hc => .inr (.inr (Option.some.inj hc).symm)
          have htext : (", ".intercalate [text]).toList = text.toList := by
            simp
          rw [htext, items?_reads hvalue (by omega) hbracket]
          rfl
      | @cons next nextText items texts hnext hreads =>
          have hitems : items? fuel depth
              ((", ".intercalate (nextText :: texts)).toList ++ ']' :: rest) =
                some (next :: items, rest) := ih (by omega)
          have htext : (", ".intercalate (text :: nextText :: texts)).toList ++ ']' :: rest =
              text.toList ++ ',' :: ' ' ::
                ((", ".intercalate (nextText :: texts)).toList ++ ']' :: rest) := by
            simp [String.toList_intercalate]
          have hcomma : Ends (',' :: ' ' ::
              ((", ".intercalate (nextText :: texts)).toList ++ ']' :: rest)) :=
            fun c hc => .inr (.inl (Option.some.inj hc).symm)
          rw [htext, items?_reads hvalue (by omega) hcomma]
          show (items? fuel depth (' ' :: _)).map _ = _
          rw [items?_blank, hitems]
          rfl

/-- An array has no more items than characters. -/
theorem length_le_intercalate {items : List Toml} {texts : List String}
    (hreads : List.Forall₂ (fun item text => Reads 1 0 text.toList item) items texts) :
    items.length ≤ (", ".intercalate texts).toList.length := by
  induction hreads with
  | nil => exact Nat.zero_le _
  | @cons value text items texts hvalue hreads ih =>
      obtain ⟨c, tail, htext, -⟩ := hvalue.starts
      have hpos : 0 < text.toList.length := by
        rw [htext]
        exact Nat.succ_pos _
      cases hreads with
      | nil =>
          have hone : (", ".intercalate [text]).toList = text.toList := by simp
          rw [hone]
          exact hpos
      | @cons next nextText items texts hnext hreads =>
          have hmore : (", ".intercalate (text :: nextText :: texts)).toList =
              text.toList ++ [',', ' '] ++ (", ".intercalate (nextText :: texts)).toList := by
            simp [String.toList_intercalate]
          rw [hmore, List.length_append, List.length_append]
          simp only [List.length_cons] at ih ⊢
          omega

/-- An array of values without parts is read as it was written. -/
theorem reads_array {items : List Toml} {texts : List String}
    (hreads : List.Forall₂ (fun item text => Reads 1 0 text.toList item) items texts) :
    Reads (items.length + 2) 1 ("[" ++ ", ".intercalate texts ++ "]").toList (.array items) := by
  have hchars : ("[" ++ ", ".intercalate texts ++ "]").toList =
      '[' :: ((", ".intercalate texts).toList ++ [']']) := by
    simp [String.toList_append]
  rw [hchars]
  refine ⟨⟨'[', _, rfl, .inl rfl⟩, fun {fuel} {depth} hfuel hdepth {rest} _ => ?_⟩
  obtain ⟨fuel, rfl⟩ := Nat.exists_eq_add_of_le' (Nat.zero_lt_of_lt hfuel)
  obtain ⟨depth, rfl⟩ := Nat.exists_eq_add_of_le' hdepth
  have hitems : items? fuel depth ((", ".intercalate texts).toList ++ ']' :: rest) =
      some (items, rest) := items?_intercalate hreads (by omega)
  rw [List.cons_append, List.append_assoc, List.singleton_append, value?, hitems]
  rfl

/-! ## All values -/

/-- Whether a value is one that texts can stand for, or an array of such values. -/
def IsPlain : Toml → Prop
  | .array items => ∀ item ∈ items, IsPlainValue item
  | value => IsPlainValue value

theorem Reads.mono {need more levels moreLevels : Nat} {value : Toml}
    (h : Reads need levels item value) (hneed : need ≤ more) (hlevels : levels ≤ moreLevels) :
    Reads more moreLevels item value where
  starts := h.starts
  value_eq hfuel hdepth := h.value_eq (hneed.trans hfuel) (hlevels.trans hdepth)

/-- A value is read as it was written. -/
theorem reads_valueText {value : Toml} {line : String} (hvalue : IsPlain value)
    (h : valueText? value = some line) : Reads (line.toList.length + 2) 1 line.toList value := by
  cases value with
  | array items =>
      obtain ⟨texts, htexts, rfl⟩ := Option.map_eq_some_iff.mp h
      have hreads : List.Forall₂ (fun item text => Reads 1 0 text.toList item) items texts :=
        (List.forall₂_and_left _ _ |>.mpr ⟨hvalue, option_mapM_eq_some_iff.mp htexts⟩).imp
          fun item _ hitem => reads_scalarText item hitem.1 hitem.2
      have hlength := length_le_intercalate hreads
      refine (reads_array hreads).mono ?_ le_rfl
      rw [String.toList_append, String.toList_append, List.length_append, List.length_append]
      omega
  | text value => exact (reads_scalarText (.text value) hvalue h).mono (by omega) (by omega)
  | integer value => exact (reads_scalarText (.integer value) hvalue h).mono (by omega) (by omega)
  | real value => exact (reads_scalarText (.real value) hvalue h).mono (by omega) (by omega)
  | boolean value => exact (reads_scalarText (.boolean value) hvalue h).mono (by omega) (by omega)
  | moment _ => exact hvalue.elim
  | table _ _ => exact hvalue.elim
  | tables _ => exact hvalue.elim

end VoltageStats.Toml
