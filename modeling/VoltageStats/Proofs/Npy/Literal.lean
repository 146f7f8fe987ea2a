import VoltageStats.Npy.Literal
import VoltageStats.Proofs.Decimal.Literal

/-!
# Literals read back

Plain texts in single quotes, natural numbers, tuples of them and dictionaries of such values are
read off the front of the characters that write them. `Reads` says so for one value, if there is
enough fuel and a comma follows it, and `parse_dictionary` for a dictionary that is all there is.
-/

namespace VoltageStats.Npy.Literal

open VoltageStats.Literal (digitRun_append digitsIn?_toDigits isDigit_ne isDigit_of_mem_toDigits
  toDigits_eq_cons)

/-! ## Numbers -/

/-- What does not start with a blank has no blanks in front. -/
theorem skipBlanks_cons {c : Char} {rest : List Char} (hblank : ¬ isBlank c) :
    skipBlanks (c :: rest) = c :: rest := by
  rw [skipBlanks, List.dropWhile_cons_of_neg hblank]

/-- What is neither blank nor a sign is not preceded by signs. -/
theorem signs_cons {c : Char} {rest : List Char} (hblank : ¬ isBlank c) (hminus : c ≠ '-')
    (hplus : c ≠ '+') (fuel : Nat) : signs fuel (c :: rest) = (false, 0, c :: rest) := by
  cases fuel with
  | zero => rfl
  | succ fuel =>
      rw [signs, skipBlanks_cons hblank]
      split
      next h => exact absurd (List.cons.inj h).1 hminus
      next h => exact absurd (List.cons.inj h).1 hplus
      next => rfl

theorem decimal_toDigits (n : Nat) (tail : List Char) :
    unsignedNumber.decimal (Nat.toDigits 10 n ++ ',' :: tail) =
      some (.integer n, ',' :: tail) := by
  rw [unsignedNumber.decimal, digitRun_append (fun _ => isDigit_of_mem_toDigits) (by simp)]
  simp [exponentFrom, Nat.toDigits_ne_nil, digitsIn?_toDigits]

/-- A leading zero of a decimal number does not name another base. -/
theorem unsignedNumber_toDigits (n : Nat) (tail : List Char) :
    unsignedNumber (Nat.toDigits 10 n ++ ',' :: tail) = some (.integer n, ',' :: tail) := by
  have hdigits : ∀ c ∈ Nat.toDigits 10 n, c.isDigit := fun _ => isDigit_of_mem_toDigits
  rw [← decimal_toDigits n tail]
  generalize Nat.toDigits 10 n = digits at hdigits
  rw [unsignedNumber.eq_def]
  split
  next c rest h =>
    -- After a leading zero comes another digit or the comma, and neither names a base.
    have hc : c.isDigit ∨ c = ',' := by
      rcases digits with _ | ⟨d, _ | ⟨e, digits⟩⟩
      · cases h
      · obtain ⟨-, rfl, -⟩ : d = '0' ∧ ',' = c ∧ tail = rest := by simpa using h
        exact .inr rfl
      · obtain ⟨-, rfl, -⟩ : d = '0' ∧ e = c ∧ digits ++ ',' :: tail = rest := by simpa using h
        exact .inl (hdigits e (by simp))
    have hbase : ∀ d, ¬ Char.isDigit d → d ≠ ',' → c ≠ d := by
      rintro d hd hcomma rfl
      exact hc.elim hd hcomma
    rw [if_neg, if_neg, if_neg]
    all_goals simp [hbase]
  next => rfl

theorem moreTerms_comma (sum : Literal) (fuel : Nat) (tail : List Char) :
    moreTerms sum fuel (',' :: tail) = some (sum, ',' :: tail) := by
  cases fuel with
  | zero => rfl
  | succ fuel => rw [moreTerms, signs_cons (by decide) (by decide) (by decide)]

theorem not_isBlank_of_isDigit {c : Char} (hc : c.isDigit) : ¬ isBlank c := by
  have hblank := isDigit_ne hc (d := ' ') (by decide)
  have htab := isDigit_ne hc (d := '\t') (by decide)
  have hfeed := isDigit_ne hc (d := '\x0c') (by decide)
  simp [isBlank, hblank, htab, hfeed]

theorem number_toDigits (n : Nat) (tail : List Char) :
    number (Nat.toDigits 10 n ++ ',' :: tail) = some (.integer n, ',' :: tail) := by
  have hnumber := unsignedNumber_toDigits n tail
  obtain ⟨c, digits, hdigits, hc⟩ := toDigits_eq_cons n
  rw [hdigits, List.cons_append] at hnumber ⊢
  have hblank := not_isBlank_of_isDigit hc
  rw [number, signs_cons hblank (isDigit_ne hc (by decide)) (isDigit_ne hc (by decide))]
  simp only [skipBlanks_cons hblank, hnumber, Option.bind_eq_bind, Option.bind_some,
    moreTerms_comma, plus, Bool.false_eq_true, if_false, Int.zero_add]

/-! ## Values -/

theorem value_toDigits (n fuel : Nat) (tail : List Char) :
    value (fuel + 1) (Nat.toDigits 10 n ++ ',' :: tail) = some (.integer n, ',' :: tail) := by
  have hnumber := number_toDigits n tail
  obtain ⟨c, digits, hdigits, hc⟩ := toDigits_eq_cons n
  rw [hdigits, List.cons_append] at hnumber ⊢
  have hne : ∀ d, ¬ Char.isDigit d → c ≠ d := fun d => isDigit_ne hc
  have hword : ∀ d word, ¬ Char.isDigit d →
      afterWord? (String.ofList (d :: word)) (c :: (digits ++ ',' :: tail)) = Option.none := by
    intro d word hd
    simp [afterWord?, hne d hd]
  have htrue : afterWord? "True" (c :: (digits ++ ',' :: tail)) = Option.none :=
    hword 'T' _ (by decide)
  have hfalse : afterWord? "False" (c :: (digits ++ ',' :: tail)) = Option.none :=
    hword 'F' _ (by decide)
  have hnone : afterWord? "None" (c :: (digits ++ ',' :: tail)) = Option.none :=
    hword 'N' _ (by decide)
  -- A digit starts no text, no bracket and no word, so only a number is left.
  rw [value]
  split
  all_goals simp_all

/-- A character that stands for itself in a text in single quotes. -/
def isPlain (c : Char) : Bool := c ≠ '\\' && c ≠ '\'' && c ≠ '\n' && c ≠ '\r'

theorem quoted_append {chars rest : List Char} {fuel : Nat} (hplain : ∀ c ∈ chars, isPlain c)
    (hfuel : chars.length < fuel) :
    quoted '\'' false fuel (chars ++ '\'' :: rest) = some (chars, rest) := by
  induction chars generalizing fuel with
  | nil =>
      obtain ⟨fuel, rfl⟩ := Nat.exists_eq_add_of_lt hfuel
      simp [quoted]
  | cons c chars ih =>
      obtain ⟨fuel, rfl⟩ := Nat.exists_eq_add_of_lt hfuel
      have hc : isPlain c := hplain c List.mem_cons_self
      have htail : quoted '\'' false (chars.length + 1 + fuel) (chars ++ '\'' :: rest) =
          some (chars, rest) :=
        ih (fun d hd => hplain d (List.mem_cons_of_mem c hd)) (by omega)
      simp only [isPlain, Bool.and_eq_true, decide_eq_true_eq] at hc
      obtain ⟨⟨⟨hslash, hquote⟩, hline⟩, hreturn⟩ := hc
      simp [quoted, hslash, hquote, hline, hreturn, htail]

/-- A text of plain characters in single quotes. -/
def quote (chars : List Char) : List Char := '\'' :: (chars ++ ['\''])

theorem value_quote {chars rest : List Char} (hne : chars ≠ []) (hplain : ∀ c ∈ chars, isPlain c)
    (fuel : Nat) :
    value (fuel + 1) (quote chars ++ rest) = some (.text (String.ofList chars), rest) := by
  have hquoted : quoted '\'' false (chars ++ '\'' :: rest).length (chars ++ '\'' :: rest) =
      some (chars, rest) :=
    quoted_append hplain (by simp)
  obtain ⟨c, chars, rfl⟩ := List.exists_cons_of_ne_nil hne
  have hc : c ≠ '\'' := by
    have := hplain c List.mem_cons_self
    simp only [isPlain, Bool.and_eq_true, decide_eq_true_eq] at this
    exact this.1.1.2
  have htext : textFrom? (quote (c :: chars) ++ rest) =
      some (String.ofList (c :: chars), rest) := by
    simp only [quote, List.cons_append, List.append_assoc, List.nil_append] at hquoted ⊢
    rw [textFrom?.eq_def]
    split
    next h => exact absurd (List.cons.inj (List.cons.inj h).2).1 hc
    next h => simp at h
    next h =>
      obtain ⟨-, rfl⟩ := List.cons.inj h
      rw [hquoted]
      rfl
    next h => simp at h
    next h _ => exact absurd rfl (h _)
  rw [show quote (c :: chars) ++ rest = '\'' :: (c :: chars ++ ['\''] ++ rest) from rfl] at htext ⊢
  simp only [value, htext, Option.map_some]

/-- Natural numbers, each with a comma and a blank after it. -/
def listed (numbers : List Nat) : List Char :=
  numbers.flatMap fun n => Nat.toDigits 10 n ++ [',', ' ']

/-- What follows the blank after a number starts with a digit or with the bracket. -/
theorem skipBlanks_listed (numbers : List Nat) (rest : List Char) :
    skipBlanks (' ' :: (listed numbers ++ ')' :: rest)) = listed numbers ++ ')' :: rest := by
  rw [skipBlanks, List.dropWhile_cons_of_pos (by decide), ← skipBlanks]
  cases numbers with
  | nil => exact skipBlanks_cons (by decide)
  | cons m numbers =>
      obtain ⟨c, digits, hdigits, hc⟩ := toDigits_eq_cons m
      rw [listed, List.flatMap_cons, hdigits]
      exact skipBlanks_cons (not_isBlank_of_isDigit hc)

theorem items_listed (numbers : List Nat) (rest : List Char) (extra : Nat) :
    items (numbers.length + 2 + extra) ')' (listed numbers ++ ')' :: rest) =
      some (numbers.map fun n : Nat => .integer n, !numbers.isEmpty, rest) := by
  induction numbers with
  | nil =>
      rw [show ([] : List Nat).length + 2 + extra = extra + 1 + 1 by simp; omega]
      simp [items, listed]
  | cons n numbers ih =>
      have hvalue := value_toDigits n (numbers.length + 1 + extra)
        (' ' :: (listed numbers ++ ')' :: rest))
      obtain ⟨c, digits, hdigits, hc⟩ := toDigits_eq_cons n
      have hclose : c ≠ ')' := isDigit_ne hc (by decide)
      have hlisted : listed (n :: numbers) ++ ')' :: rest =
          c :: (digits ++ ',' :: ' ' :: (listed numbers ++ ')' :: rest)) := by
        simp [listed, hdigits]
      rw [hdigits, List.cons_append,
        show numbers.length + 1 + extra + 1 = numbers.length + 2 + extra by omega] at hvalue
      rw [hlisted, List.length_cons,
        show numbers.length + 1 + 2 + extra = numbers.length + 2 + extra + 1 by omega, items,
        if_neg hclose, hvalue]
      simp only [Option.bind_eq_bind, Option.bind_some, skipBlanks_cons (c := ',') (by decide),
        skipBlanks_listed, ih]
      simp

/-- Natural numbers in parentheses. -/
def tupled (numbers : List Nat) : List Char := '(' :: (listed numbers ++ [')'])

theorem value_tupled (numbers : List Nat) (rest : List Char) (extra : Nat) :
    value (numbers.length + 3 + extra) (tupled numbers ++ rest) =
      some (.tuple (numbers.map fun n : Nat => .integer n), rest) := by
  have hitems := items_listed numbers rest extra
  have hskip : skipBlanks (listed numbers ++ ')' :: rest) = listed numbers ++ ')' :: rest := by
    have h := skipBlanks_listed numbers rest
    rwa [skipBlanks, List.dropWhile_cons_of_pos (by decide), ← skipBlanks] at h
  rw [show numbers.length + 3 + extra = numbers.length + 2 + extra + 1 by omega, tupled,
    List.cons_append, List.append_assoc, List.singleton_append]
  simp only [value, hskip, hitems, Option.bind_eq_bind, Option.bind_some]
  -- Of a tuple and a number in parentheses only the tuple has a comma, which shows for one number.
  rcases numbers with _ | ⟨n, _ | ⟨m, numbers⟩⟩ <;> simp

theorem value_false (fuel : Nat) (rest : List Char) :
    value (fuel + 1) ("False".toList ++ rest) = some (.boolean false, rest) := by
  simp [value, afterWord?]

theorem value_true (fuel : Nat) (rest : List Char) :
    value (fuel + 1) ("True".toList ++ rest) = some (.boolean true, rest) := by
  simp [value, afterWord?]

/-! ## Dictionaries -/

/-- Some characters are a value without blanks in front, if a comma follows them and there is at
least some fuel. -/
structure Reads (need : Nat) (item : List Char) (literal : Literal) : Prop where
  skip_eq : ∀ rest, skipBlanks (item ++ ',' :: rest) = item ++ ',' :: rest
  value_eq : ∀ {fuel}, need ≤ fuel → ∀ rest,
    value fuel (item ++ ',' :: rest) = some (literal, ',' :: rest)

theorem Reads.mono {need more : Nat} {item : List Char} {literal : Literal}
    (h : Reads need item literal) (hle : need ≤ more) : Reads more item literal where
  skip_eq := h.skip_eq
  value_eq hfuel := h.value_eq (Nat.le_trans hle hfuel)

theorem reads_quote {chars : List Char} (hne : chars ≠ []) (hplain : ∀ c ∈ chars, isPlain c) :
    Reads 1 (quote chars) (.text (String.ofList chars)) where
  skip_eq _ := skipBlanks_cons (by decide)
  value_eq {fuel} hfuel rest := by
    obtain ⟨fuel, rfl⟩ := Nat.exists_eq_add_of_le' hfuel
    exact value_quote hne hplain fuel

theorem reads_tupled (numbers : List Nat) :
    Reads (numbers.length + 3) (tupled numbers)
      (.tuple (numbers.map fun n : Nat => .integer n)) where
  skip_eq _ := skipBlanks_cons (by decide)
  value_eq {fuel} hfuel rest := by
    obtain ⟨extra, rfl⟩ := Nat.exists_eq_add_of_le hfuel
    exact value_tupled numbers (',' :: rest) extra

theorem reads_false : Reads 1 "False".toList (.boolean false) where
  skip_eq _ := skipBlanks_cons (by decide)
  value_eq {fuel} hfuel rest := by
    obtain ⟨fuel, rfl⟩ := Nat.exists_eq_add_of_le' hfuel
    exact value_false fuel (',' :: rest)

theorem reads_true : Reads 1 "True".toList (.boolean true) where
  skip_eq _ := skipBlanks_cons (by decide)
  value_eq {fuel} hfuel rest := by
    obtain ⟨fuel, rfl⟩ := Nat.exists_eq_add_of_le' hfuel
    exact value_true fuel (',' :: rest)

/-- An entry of a dictionary: a plain key, and a value with the characters that write it. -/
structure Entry (need : Nat) where
  key : List Char
  item : List Char
  literal : Literal
  key_ne_nil : key ≠ []
  key_plain : ∀ c ∈ key, isPlain c
  reads : Reads need item literal

namespace Entry

variable {need : Nat}

/-- The characters of an entry, with a comma and a blank after it. -/
def chars (e : Entry need) : List Char := quote e.key ++ ':' :: ' ' :: (e.item ++ [',', ' '])

/-- The key and the value of an entry. -/
def pair (e : Entry need) : Literal × Literal := (.text (String.ofList e.key), e.literal)

end Entry

section

variable {need : Nat} (listing : List (Entry need)) (rest : List Char)

/-- What follows an entry starts with a quote or with the closing brace. -/
theorem skipBlanks_chars :
    skipBlanks (listing.flatMap Entry.chars ++ '\x7d' :: rest) =
      listing.flatMap Entry.chars ++ '\x7d' :: rest := by
  cases listing with
  | nil => exact skipBlanks_cons (by decide)
  | cons e listing => exact skipBlanks_cons (by decide)

theorem entries_chars {fuel : Nat} (hfuel : need + listing.length + 1 ≤ fuel) :
    entries fuel (listing.flatMap Entry.chars ++ '\x7d' :: rest) =
      some (listing.map fun e => (e.pair.1, some e.pair.2), rest) := by
  induction listing generalizing fuel with
  | nil =>
      obtain ⟨fuel, rfl⟩ := Nat.exists_eq_add_of_le' hfuel
      rfl
  | cons e listing ih =>
      obtain ⟨fuel, rfl⟩ : ∃ k, fuel = k + 2 := ⟨fuel - 2, by simp at hfuel; omega⟩
      simp only [List.length_cons] at hfuel
      have htail : entries (fuel + 1) (listing.flatMap Entry.chars ++ '\x7d' :: rest) =
          some (listing.map fun e => (e.pair.1, some e.pair.2), rest) := ih (by omega)
      have hitem : ∀ rest, value (fuel + 1) (e.item ++ ',' :: rest) =
          some (e.literal, ',' :: rest) := e.reads.value_eq (by omega)
      have hchars : (e :: listing).flatMap Entry.chars ++ '\x7d' :: rest =
          quote e.key ++ ':' :: ' ' ::
            (e.item ++ ',' :: ' ' :: (listing.flatMap Entry.chars ++ '\x7d' :: rest)) := by
        simp [Entry.chars]
      have hblank : ∀ input, skipBlanks (' ' :: input) = skipBlanks input := fun _ => rfl
      rw [hchars, entries]
      · simp only [value_quote e.key_ne_nil e.key_plain fuel, Option.bind_eq_bind,
          Option.bind_some, skipBlanks_cons (c := ':') (by decide), hblank, e.reads.skip_eq,
          hitem, Option.pure_def,
          skipBlanks_cons (c := ',') (by decide), skipBlanks_chars, htail]
        rfl
      · intro tail h
        cases h

/-- A dictionary with nothing but blanks after it. -/
def dictionaryChars (blanks : Nat) : List Char :=
  '\x7b' :: (listing.flatMap Entry.chars ++ '\x7d' :: List.replicate blanks ' ')

theorem parse_dictionary {blanks : Nat}
    (hfuel : need + listing.length ≤ 2 * (dictionaryChars listing blanks).length) :
    parse? (dictionaryChars listing blanks) = some (.dictionary (listing.map Entry.pair)) := by
  have hentries : entries (2 * (dictionaryChars listing blanks).length + 1)
      (listing.flatMap Entry.chars ++ '\x7d' :: List.replicate blanks ' ') =
        some (listing.map fun e => (e.pair.1, some e.pair.2), List.replicate blanks ' ') :=
    entries_chars listing (List.replicate blanks ' ') (by omega)
  have hstart : skipBlanks (dictionaryChars listing blanks) = dictionaryChars listing blanks :=
    skipBlanks_cons (by decide)
  have hend : skipBlanks (List.replicate blanks ' ') = [] := by
    rw [skipBlanks, List.dropWhile_replicate, if_pos (by decide)]
  have hbraced : braced (listing.map fun e => (e.pair.1, some e.pair.2)) =
      some (.dictionary (listing.map Entry.pair)) := by
    rw [braced, if_pos (by simp)]
    simp [List.filterMap_map]
  rw [parse?, hstart]
  generalize 2 * (dictionaryChars listing blanks).length = fuel at hentries
  rw [dictionaryChars, value]
  simp only [skipBlanks_chars, hentries, Option.bind_eq_bind, Option.bind_some, hbraced,
    Option.pure_def, hend, if_true]

end

end VoltageStats.Npy.Literal
