import VoltageStats.Proofs.Toml.Number

/-!
# Texts in TOML documents

A text is read as it was written, in whichever of the five ways (`text?_quoted`), unless a quote
follows it.
-/

namespace VoltageStats.Toml

open Literal (charOf? digitsIn? hexChar?)

variable {c : Char} {chars rest : List Char} {fuel : Nat}

/-! ## Single characters -/

theorem charOf?_toNat (c : Char) : charOf? c.toNat = some c := by
  have hvalid : c.toNat.isValidChar := c.valid
  rw [charOf?, dif_pos hvalid]
  exact congrArg some (Char.ext (UInt32.toNat_inj.mp rfl))

/-- A control character is read from its code. -/
theorem hexChar?_hexWord (hc : c.toNat < 128) :
    hexChar? 4 (hexWord c.toNat ++ rest) = some (c, rest) := by
  have hdigits : ∀ n < 128, digitsIn? 16 (hexWord n) = some n := by decide +kernel
  have hlength : (hexWord c.toNat).length = 4 := rfl
  simp only [hexChar?, List.take_left' hlength, List.drop_left' hlength, hlength, hdigits _ hc,
    Option.bind_eq_bind, Option.bind_some, charOf?_toNat]
  rfl

/-- A character stands for itself, or an escape sequence stands for it. -/
theorem escaped_cases (isLong : Bool) (c : Char) :
    (escaped isLong c = [c] ∧ c ≠ '"' ∧ c ≠ '\\' ∧ (isPlain c ∨ isLong ∧ c = '\n')) ∨
      ∃ d tail, escaped isLong c = '\\' :: d :: tail ∧ ¬ isBlank d ∧ d ≠ '\n' ∧ d ≠ '\r' ∧
        ∀ rest, escaped? (d :: tail ++ rest) = some (c, rest) := by
  unfold escaped
  split_ifs with hback htab hline hlong hfeed hreturn hquote hslash hcontrol
  · exact .inr ⟨'b', [], rfl, by decide, by decide, by decide, fun _ => hback ▸ rfl⟩
  · exact .inr ⟨'t', [], rfl, by decide, by decide, by decide, fun _ => htab ▸ rfl⟩
  · exact .inl ⟨hline ▸ rfl, hline ▸ by decide, hline ▸ by decide, .inr ⟨hlong, hline⟩⟩
  · exact .inr ⟨'n', [], rfl, by decide, by decide, by decide, fun _ => hline ▸ rfl⟩
  · exact .inr ⟨'f', [], rfl, by decide, by decide, by decide, fun _ => hfeed ▸ rfl⟩
  · exact .inr ⟨'r', [], rfl, by decide, by decide, by decide, fun _ => hreturn ▸ rfl⟩
  · subst hquote
    exact .inr ⟨'"', [], rfl, by decide, by decide, by decide, fun _ => rfl⟩
  · subst hslash
    exact .inr ⟨'\\', [], rfl, by decide, by decide, by decide, fun _ => rfl⟩
  · have hlt : c.toNat < 128 := by
      rw [Bool.or_eq_true, decide_eq_true_eq, decide_eq_true_eq] at hcontrol
      omega
    exact .inr ⟨'u', hexWord c.toNat, rfl, by decide, by decide, by decide, fun _ =>
      hexChar?_hexWord hlt⟩
  · have hplain : isPlain c := by
      rw [Bool.or_eq_true, decide_eq_true_eq, decide_eq_true_eq] at hcontrol
      simp only [isPlain, Bool.or_eq_true, Bool.and_eq_true, decide_eq_true_eq]
      omega
    exact .inl ⟨rfl, hquote, hslash, .inl hplain⟩

/-- No character is left out. -/
theorem length_le_escaped (isLong : Bool) (chars : List Char) :
    chars.length ≤ (chars.flatMap (escaped isLong)).length := by
  induction chars with
  | nil => exact Nat.zero_le _
  | cons c chars ih =>
      have hpos : 0 < (escaped isLong c).length := by
        rcases escaped_cases isLong c with ⟨hself, -⟩ | ⟨d, tail, hescaped, -⟩
        · rw [hself]
          exact Nat.one_pos
        · rw [hescaped]
          exact Nat.succ_pos _
      rw [List.flatMap_cons, List.length_append, List.length_cons]
      omega

/-! ## Texts on one line -/

theorem quotedText?_escaped (hfuel : chars.length < fuel) :
    quotedText? fuel (chars.flatMap (escaped false) ++ '"' :: rest) = some (chars, rest) := by
  induction chars generalizing fuel with
  | nil =>
      obtain ⟨fuel, rfl⟩ := Nat.exists_eq_add_of_le' hfuel
      rfl
  | cons c chars ih =>
      obtain ⟨fuel, rfl⟩ := Nat.exists_eq_add_of_le' (Nat.zero_lt_of_lt hfuel)
      have hrest := ih (Nat.lt_of_succ_lt_succ hfuel)
      rw [List.flatMap_cons, List.append_assoc]
      rcases escaped_cases false c with
        ⟨hself, hquote, hslash, hplain⟩ | ⟨d, tail, hescaped, -, -, -, hread⟩
      · have hplain : isPlain c := hplain.resolve_right fun h => absurd h.1 Bool.false_ne_true
        rw [hself, List.singleton_append, quotedText?, if_neg hquote, if_neg hslash, if_pos hplain,
          hrest]
        rfl
      · rw [hescaped, List.cons_append, quotedText?, if_neg (by decide), if_pos rfl, hread]
        simp only [Option.bind_eq_bind, Option.bind_some, hrest]
        rfl

theorem verbatimText?_append (hchars : ∀ c ∈ chars, isPlain c ∧ c ≠ '\'') :
    verbatimText? (chars ++ '\'' :: rest) = some (chars, rest) := by
  have hspan : (chars ++ '\'' :: rest).span (fun c => isPlain c && c ≠ '\'') =
      (chars, '\'' :: rest) :=
    span_append (fun c hc => by simpa using hchars c hc) (by simp)
  rw [verbatimText?, hspan]
  rfl

/-! ## Texts of several lines -/

variable {quote : Char} {hasEscapes : Bool}

theorem takeWhile_of_head? (hrest : ∀ c ∈ rest.head?, c ≠ quote) :
    rest.takeWhile (fun c => decide (c = quote)) = [] := by
  cases rest with
  | nil => rfl
  | cons c rest => exact List.takeWhile_cons_of_neg (by simpa using hrest c rfl)

/-- Three quotes close a text if no further quote follows. -/
theorem linesText?_close (hfuel : 0 < fuel) (hrest : ∀ c ∈ rest.head?, c ≠ quote) :
    linesText? quote hasEscapes fuel (quote :: quote :: quote :: rest) = some ([], rest) := by
  obtain ⟨fuel, rfl⟩ := Nat.exists_eq_add_one_of_ne_zero (Nat.ne_of_gt hfuel)
  have hquotes : (quote :: quote :: quote :: rest).takeWhile (fun c => decide (c = quote)) =
      [quote, quote, quote] := by
    simp [takeWhile_of_head? hrest]
  rw [linesText?]
  dsimp only
  rw [hquotes]
  rfl

theorem linesText?_newline (hquote : quote ≠ '\n') :
    linesText? quote hasEscapes (fuel + 1) ('\n' :: rest) =
      (linesText? quote hasEscapes fuel rest).map fun (chars, rest) => ('\n' :: chars, rest) := by
  have hquotes : ('\n' :: rest).takeWhile (fun c => decide (c = quote)) = [] :=
    takeWhile_of_head? (by simpa using hquote.symm)
  rw [linesText?]
  dsimp only
  rw [hquotes]
  rfl

/-- The end of a line starts with no other character. -/
theorem newline?_cons (hline : c ≠ '\n') (hreturn : c ≠ '\r') : newline? (c :: rest) = none := by
  unfold newline?
  split
  next h => exact absurd (List.cons.inj h).1 hline
  next h => exact absurd (List.cons.inj h).1 hreturn
  next => rfl

/-- A character stands for itself, even a quote that is not one of three. -/
theorem linesText?_plain (hplain : isPlain c) (hslash : hasEscapes → c ≠ '\\')
    (hquotes : ((c :: rest).takeWhile (fun c => decide (c = quote))).length < 3) :
    linesText? quote hasEscapes (fuel + 1) (c :: rest) =
      (linesText? quote hasEscapes fuel rest).map fun (chars, rest) => (c :: chars, rest) := by
  have hline : c ≠ '\n' := by
    rintro rfl
    exact absurd hplain (by decide)
  have hreturn : c ≠ '\r' := by
    rintro rfl
    exact absurd hplain (by decide)
  have hescape : ¬ (hasEscapes && c = '\\') = true := by
    simpa using hslash
  rw [linesText?]
  dsimp only
  rw [if_neg (by omega), newline?_cons hline hreturn, if_neg hescape, if_pos hplain]

theorem linesText?_escape {tail : List Char} {d : Char} (hquote : quote ≠ '\\')
    (hblank : ¬ isBlank d) (hline : d ≠ '\n') (hreturn : d ≠ '\r')
    (hread : escaped? (d :: tail) = some (c, rest)) :
    linesText? quote true (fuel + 1) ('\\' :: d :: tail) =
      (linesText? quote true fuel rest).map fun (chars, rest) => (c :: chars, rest) := by
  have hquotes : ('\\' :: d :: tail).takeWhile (fun c => decide (c = quote)) = [] :=
    takeWhile_of_head? (by simpa using hquote.symm)
  have hcontinuation : continuation? (d :: tail) = none := by
    rw [continuation?, skipBlanks, List.dropWhile_cons_of_neg hblank, newline?_cons hline hreturn]
    rfl
  rw [linesText?]
  dsimp only
  rw [hquotes, newline?_cons (by decide) (by decide), hcontinuation, hread]
  simp only [List.length_nil, decide_true, Bool.and_self, if_true, Option.bind_eq_bind,
    Option.bind_some]
  cases linesText? quote true fuel rest <;> rfl

theorem linesText?_escaped (hfuel : chars.length < fuel) (hrest : ∀ c ∈ rest.head?, c ≠ '"') :
    linesText? '"' true fuel (chars.flatMap (escaped true) ++ '"' :: '"' :: '"' :: rest) =
      some (chars, rest) := by
  induction chars generalizing fuel with
  | nil => exact linesText?_close hfuel hrest
  | cons c chars ih =>
      obtain ⟨fuel, rfl⟩ := Nat.exists_eq_add_of_le' (Nat.zero_lt_of_lt hfuel)
      have hchars := ih (Nat.lt_of_succ_lt_succ hfuel)
      rw [List.flatMap_cons, List.append_assoc]
      rcases escaped_cases true c with
        ⟨hself, hquote, hslash, hplain⟩ | ⟨d, tail, hescaped, hblank, hline, hreturn, hread⟩
      · rw [hself, List.singleton_append]
        rcases hplain with hplain | ⟨-, rfl⟩
        · rw [linesText?_plain hplain (fun _ => hslash), hchars]
          · rfl
          · rw [takeWhile_of_head? (by simpa using hquote)]
            decide
        · rw [linesText?_newline (by decide), hchars]
          rfl
      · rw [hescaped, List.cons_append, List.cons_append]
        refine (linesText?_escape (by decide) hblank hline hreturn (hread _)).trans ?_
        rw [hchars]
        rfl

theorem hasThreeQuotes_cons (h : hasThreeQuotes (c :: chars) = false) :
    hasThreeQuotes chars = false ∧ ∀ tail, c = '\'' → chars ≠ '\'' :: '\'' :: tail := by
  unfold hasThreeQuotes at h
  split at h
  next => cases h
  next hnot heq =>
    obtain ⟨rfl, rfl⟩ := List.cons.inj heq
    refine ⟨h, ?_⟩
    rintro tail rfl rfl
    exact hnot _ rfl rfl
  next heq => cases heq

/-- Before three quotes at the end there are fewer than three side by side. -/
theorem length_takeWhile_quotes (hthree : hasThreeQuotes (c :: chars) = false)
    (hlast : (c :: chars).getLast? ≠ some '\'') :
    ((c :: (chars ++ rest)).takeWhile (fun c => decide (c = '\''))).length < 3 := by
  -- One quote or two may stand here, but then another character follows them in the text.
  have hside := (hasThreeQuotes_cons hthree).2
  by_cases hc : c = '\''
  · subst hc
    rcases chars with _ | ⟨d, chars⟩
    · exact absurd rfl hlast
    · by_cases hd : d = '\''
      · subst hd
        rcases chars with _ | ⟨e, chars⟩
        · exact absurd rfl hlast
        · have he : e ≠ '\'' := fun he => hside chars rfl (by rw [he])
          simp [he]
      · simp [hd]
  · simp [hc]

/-- A text without three quotes side by side is read verbatim, unless a quote is its end. -/
theorem linesText?_verbatim (hfuel : chars.length < fuel)
    (hplain : ∀ c ∈ chars, isPlain c ∨ c = '\n') (hthree : hasThreeQuotes chars = false)
    (hlast : chars.getLast? ≠ some '\'') (hrest : ∀ c ∈ rest.head?, c ≠ '\'') :
    linesText? '\'' false fuel (chars ++ '\'' :: '\'' :: '\'' :: rest) = some (chars, rest) := by
  induction chars generalizing fuel with
  | nil => exact linesText?_close hfuel hrest
  | cons c chars ih =>
      obtain ⟨fuel, rfl⟩ := Nat.exists_eq_add_of_le' (Nat.zero_lt_of_lt hfuel)
      have hlastRest : chars.getLast? ≠ some '\'' := by
        cases chars with
        | nil => simp
        | cons d chars => simpa [List.getLast?_cons_cons] using hlast
      have hchars := ih (Nat.lt_of_succ_lt_succ hfuel)
        (fun d hd => hplain d (List.mem_cons_of_mem c hd)) (hasThreeQuotes_cons hthree).1 hlastRest
      rcases hplain c List.mem_cons_self with hc | rfl
      · rw [List.cons_append]
        refine (linesText?_plain hc (by simp) (length_takeWhile_quotes hthree hlast)).trans ?_
        rw [hchars]
        rfl
      · rw [List.cons_append, linesText?_newline (by decide), hchars]
        rfl

/-! ## All texts -/

theorem text?_eq_lineText? {input : List Char} (hdouble : ∀ tail, input ≠ '"' :: '"' :: '"' :: tail)
    (hsingle : ∀ tail, input ≠ '\'' :: '\'' :: '\'' :: tail) : text? input = lineText? input := by
  unfold text?
  split
  next tail => exact absurd rfl (hdouble tail)
  next tail => exact absurd rfl (hsingle tail)
  next => rfl

/-- What a text that is written verbatim is made of. -/
theorem isVerbatim_iff :
    isVerbatim chars ↔ '\\' ∈ chars ∧ (∀ c ∈ chars, ¬ needsEscape c) ∧
      hasThreeQuotes chars = false ∧ chars.getLast? ≠ some '\'' := by
  simp [isVerbatim, and_assoc]

/-- A character that needs no escape sequence stands for itself, or ends a line. -/
theorem isPlain_or_of_not_needsEscape (hc : ¬ needsEscape c) : isPlain c ∨ c = '\n' := by
  by_cases hline : c = '\n'
  · exact .inr hline
  · left
    simp only [needsEscape, isPlain, Bool.or_eq_true, Bool.and_eq_true, decide_eq_true_eq] at hc ⊢
    by_cases htab : c = '\t'
    · exact .inl htab
    · have hcontrol : ¬ c.toNat < 0x20 := fun hlt => hc (.inl ⟨⟨hlt, htab⟩, hline⟩)
      have hdelete : c.toNat ≠ 0x7f := fun heq => hc (.inr heq)
      exact .inr ⟨by omega, hdelete⟩

theorem text?_verbatim_lines (hchars : isVerbatim chars)
    (hrest : ∀ c ∈ rest.head?, c ≠ '"' ∧ c ≠ '\'') :
    text? ('\'' :: '\'' :: '\'' :: '\n' :: (chars ++ '\'' :: '\'' :: '\'' :: rest)) =
      some (chars, rest) := by
  obtain ⟨-, hescape, hthree, hlast⟩ := isVerbatim_iff.mp hchars
  refine linesText?_verbatim ?_ (fun c hc => isPlain_or_of_not_needsEscape (hescape c hc)) hthree
    hlast fun c hc => (hrest c hc).2
  simp only [List.length_cons, List.length_append]
  omega

theorem text?_verbatim_quotes (hchars : isVerbatim chars) (hline : '\n' ∉ chars)
    (hrest : ∀ c ∈ rest.head?, c ≠ '"' ∧ c ≠ '\'') :
    text? ('\'' :: '\'' :: '\'' :: (chars ++ '\'' :: '\'' :: '\'' :: rest)) =
      some (chars, rest) := by
  obtain ⟨hslash, hescape, hthree, hlast⟩ := isVerbatim_iff.mp hchars
  have hnewline : newline? (chars ++ '\'' :: '\'' :: '\'' :: rest) = none := by
    obtain ⟨c, tail, rfl⟩ := List.exists_cons_of_ne_nil (List.ne_nil_of_mem hslash)
    refine newline?_cons (fun hc => hline (by simp [hc])) ?_
    rintro rfl
    exact hescape '\r' List.mem_cons_self (by decide)
  show longText? '\'' false (chars ++ '\'' :: '\'' :: '\'' :: rest) = _
  rw [longText?, hnewline]
  refine linesText?_verbatim ?_ (fun c hc => isPlain_or_of_not_needsEscape (hescape c hc)) hthree
    hlast fun c hc => (hrest c hc).2
  simp only [List.length_cons, List.length_append]
  omega

theorem text?_verbatim (hchars : isVerbatim chars) (hline : '\n' ∉ chars) (hquote : '\'' ∉ chars) :
    text? ('\'' :: (chars ++ '\'' :: rest)) = some (chars, rest) := by
  obtain ⟨hslash, hescape, -, -⟩ := isVerbatim_iff.mp hchars
  have hplain : ∀ c ∈ chars, isPlain c ∧ c ≠ '\'' := by
    intro c hc
    have hself := (isPlain_or_of_not_needsEscape (hescape c hc)).resolve_right
    exact ⟨hself fun h => hline (h ▸ hc), fun h => hquote (h ▸ hc)⟩
  rw [text?_eq_lineText?]
  · exact verbatimText?_append hplain
  · simp
  · intro tail heq
    obtain ⟨c, chars, rfl⟩ := List.exists_cons_of_ne_nil (List.ne_nil_of_mem hslash)
    obtain rfl := (List.cons.inj (List.cons.inj heq).2).1
    exact hquote List.mem_cons_self

theorem text?_escaped_lines (hrest : ∀ c ∈ rest.head?, c ≠ '"' ∧ c ≠ '\'') :
    text? ('"' :: '"' :: '"' :: '\n' ::
      (chars.flatMap (escaped true) ++ '"' :: '"' :: '"' :: rest)) = some (chars, rest) := by
  have hlength := length_le_escaped true chars
  refine linesText?_escaped ?_ fun c hc => (hrest c hc).1
  simp only [List.length_cons, List.length_append]
  omega

theorem text?_escaped (hrest : ∀ c ∈ rest.head?, c ≠ '"' ∧ c ≠ '\'') :
    text? ('"' :: (chars.flatMap (escaped false) ++ '"' :: rest)) = some (chars, rest) := by
  have hlength := length_le_escaped false chars
  rw [text?_eq_lineText?]
  · exact quotedText?_escaped (by simp only [List.length_cons, List.length_append]; omega)
  · -- The quote at the front is followed by another only if the text is empty.
    intro tail heq
    have htail := (List.cons.inj heq).2
    cases chars with
    | nil => exact (hrest '"' (by rw [(List.cons.inj htail).2]; rfl)).1 rfl
    | cons c chars =>
        rw [List.flatMap_cons, List.append_assoc] at htail
        rcases escaped_cases false c with ⟨hself, hquote, -⟩ | ⟨d, rest', hescaped, -⟩
        · rw [hself] at htail
          exact hquote (List.cons.inj htail).1
        · rw [hescaped] at htail
          exact absurd (List.cons.inj htail).1 (by decide)
  · simp

/-- A text is read as it was written, unless a quote follows it. -/
theorem text?_quoted (text : String) (hrest : ∀ c ∈ rest.head?, c ≠ '"' ∧ c ≠ '\'') :
    text? ((quoted text).toList ++ rest) = some (text.toList, rest) := by
  unfold quoted
  dsimp only
  split_ifs with hverbatim hlong hquote hlong
  · have h := text?_verbatim_lines hverbatim hrest
    simpa using h
  · have h := text?_verbatim_quotes hverbatim (by simpa using hlong) hrest
    simpa using h
  · have h : text? ('\'' :: (text.toList ++ '\'' :: rest)) = some (text.toList, rest) :=
      text?_verbatim hverbatim (by simpa using hlong) (by simpa using hquote)
    simpa using h
  · have h : text? ('"' :: '"' :: '"' :: '\n' ::
        (text.toList.flatMap (escaped true) ++ '"' :: '"' :: '"' :: rest)) =
          some (text.toList, rest) := text?_escaped_lines hrest
    rw [hlong]
    simpa using h
  · have h : text? ('"' :: (text.toList.flatMap (escaped false) ++ '"' :: rest)) =
        some (text.toList, rest) := text?_escaped hrest
    rw [Bool.of_not_eq_true hlong]
    simpa using h

end VoltageStats.Toml
