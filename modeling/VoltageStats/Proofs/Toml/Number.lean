import VoltageStats.Proofs.Binary.Canonical
import VoltageStats.Proofs.Decimal.Literal
import VoltageStats.Proofs.Decimal.Shortest
import VoltageStats.Toml.Printer
import VoltageStats.Toml.Reader

/-!
# Numbers in TOML documents

The word that writes an integer is read as the integer (`wordValue?_integer`), and the word that
writes a double is read as the double (`wordValue?_real`): its digits stand for a decimal in the
neighbourhood of the double.
-/

namespace VoltageStats

namespace Toml

open Literal (digitRun digitRun_append digitsValue digitsValue_append_zeros digitsValue_toDigits
  digitsValue_zeros_append head?_toDigits isDigit_ne isDigit_of_mem_toDigits splitSign)

variable {digits whole fraction word : List Char}

/-- Characters that belong together are parted from what does not belong to them. -/
theorem span_append {p : Char → Bool} {rest : List Char} (hword : ∀ c ∈ word, p c)
    (hrest : ∀ c ∈ rest.head?, ¬ p c) : (word ++ rest).span p = (word, rest) := by
  rw [List.span_eq_takeWhile_dropWhile, List.takeWhile_append_of_pos hword,
    List.dropWhile_append_of_pos hword]
  cases rest with
  | nil => simp
  | cons c rest =>
      have hc : ¬ p c := hrest c rfl
      rw [List.takeWhile_cons_of_neg hc, List.dropWhile_cons_of_neg hc, List.append_nil]

/-! ## Digits -/

theorem wholeDigits?_digits (hne : digits ≠ []) (hdigits : ∀ c ∈ digits, c.isDigit) :
    wholeDigits? Char.isDigit digits = some digits := by
  have hrun : digitRun Char.isDigit (digits ++ []) = (digits, []) :=
    digitRun_append hdigits (by simp)
  rw [List.append_nil] at hrun
  obtain ⟨c, rest, rfl⟩ := List.exists_cons_of_ne_nil hne
  simp [wholeDigits?, hrun]

/-- What follows digits without belonging to them does not make up a word with them. -/
theorem wholeDigits?_append {c : Char} {tail : List Char} (hdigits : ∀ c ∈ digits, c.isDigit)
    (hc : ¬ c.isDigit) (hunderscore : c ≠ '_') :
    wholeDigits? Char.isDigit (digits ++ c :: tail) = none := by
  have hrun : digitRun Char.isDigit (digits ++ c :: tail) = (digits, c :: tail) := by
    refine digitRun_append hdigits fun d hd => ?_
    obtain rfl := Option.some.inj hd
    exact ⟨hc, hunderscore⟩
  rw [wholeDigits?, hrun]
  cases digits <;> rfl

/-- Whether digits may stand before a point: a zero only by itself. -/
structure IsWhole (digits : List Char) : Prop where
  ne_nil : digits ≠ []
  isDigit : ∀ c ∈ digits, c.isDigit
  zero : digits.head? = some '0' → digits.length ≤ 1

theorem IsWhole.wholePart? (h : IsWhole digits) : wholePart? digits = some digits := by
  rw [Toml.wholePart?, wholeDigits?_digits h.ne_nil h.isDigit]
  have hzero : ¬ (digits.head? = some '0' ∧ 1 < digits.length) := fun hboth =>
    absurd (h.zero hboth.1) (by omega)
  simp [hzero]

theorem isWhole_toDigits (n : Nat) : IsWhole (Nat.toDigits 10 n) := by
  refine ⟨Nat.toDigits_ne_nil, fun _ => isDigit_of_mem_toDigits, fun hhead => ?_⟩
  rcases Nat.eq_zero_or_pos n with rfl | hn
  · decide
  · exact absurd hhead (head?_toDigits hn)

/-! ## Numbers with a point -/

/-- Digits with a point are read as the nearest double. -/
theorem decimal?_point {negative : Bool} (hwhole : IsWhole whole) (hne : fraction ≠ [])
    (hfraction : ∀ c ∈ fraction, c.isDigit) :
    decimal? negative (whole ++ '.' :: fraction) =
      some (Binary64.ofDecimal negative (digitsValue (whole ++ fraction)) (-fraction.length)) := by
  have hdigit : ∀ c : Char, c.isDigit → (!(decide (c = 'e') || decide (c = 'E'))) = true := by
    intro c hc
    simp [isDigit_ne hc (d := 'e') (by decide), isDigit_ne hc (d := 'E') (by decide)]
  have hmark : ∀ c ∈ whole ++ '.' :: fraction,
      (!(decide (c = 'e') || decide (c = 'E'))) = true := by
    intro c hc
    rcases List.mem_append.mp hc with hc | hc
    · exact hdigit c (hwhole.isDigit c hc)
    · rcases List.mem_cons.mp hc with rfl | hc
      · decide
      · exact hdigit c (hfraction c hc)
  have hmantissa : (whole ++ '.' :: fraction ++ []).span
      (fun c => !(decide (c = 'e') || decide (c = 'E'))) = (whole ++ '.' :: fraction, []) :=
    span_append hmark (by simp)
  rw [List.append_nil] at hmantissa
  have hpoint : (whole ++ '.' :: fraction).span (fun c => decide (c ≠ '.')) =
      (whole, '.' :: fraction) :=
    span_append (fun c hc => by simpa using isDigit_ne (hwhole.isDigit c hc) (by decide)) (by simp)
  unfold decimal?
  simp only [hmantissa, hpoint, hwhole.wholePart?, wholeDigits?_digits hne hfraction]
  simp

/-- Whether characters are digits with a point that stand for a number. -/
structure WritesPoint (whole fraction : List Char) (v : ℚ) : Prop where
  isWhole : IsWhole whole
  ne_nil : fraction ≠ []
  isDigit : ∀ c ∈ fraction, c.isDigit
  value_eq : Decimal.value ⟨digitsValue (whole ++ fraction), -fraction.length⟩ = v

theorem writesPoint_front (hne : digits ≠ []) (hdigits : ∀ c ∈ digits, c.isDigit) (zeros : Nat) :
    WritesPoint ['0'] (List.replicate zeros '0' ++ digits)
      (Decimal.value ⟨digitsValue digits, -(zeros + digits.length)⟩) where
  isWhole := ⟨by simp, by simp, by simp⟩
  ne_nil := by simp [hne]
  isDigit c hc := by
    rcases List.mem_append.mp hc with hc | hc
    · rw [List.eq_of_mem_replicate hc]
      rfl
    · exact hdigits c hc
  value_eq := by
    have hzeros := digitsValue_zeros_append (zeros + 1) digits
    rw [List.replicate_succ] at hzeros
    rw [List.cons_append, List.nil_append, ← List.cons_append, hzeros, List.length_append,
      List.length_replicate, Nat.cast_add]

theorem writesPoint_behind (hne : digits ≠ []) (hdigits : ∀ c ∈ digits, c.isDigit)
    (hhead : digits.head? ≠ some '0') (zeros : Nat) :
    WritesPoint (digits ++ List.replicate zeros '0') ['0']
      (Decimal.value ⟨digitsValue digits, zeros⟩) where
  isWhole := by
    refine ⟨by simp [hne], fun c hc => ?_, fun hzero => ?_⟩
    · rcases List.mem_append.mp hc with hc | hc
      · exact hdigits c hc
      · rw [List.eq_of_mem_replicate hc]
        rfl
    · rw [List.head?_append_of_ne_nil _ hne] at hzero
      exact absurd hzero hhead
  ne_nil := by simp
  isDigit := by simp
  value_eq := by
    have hzeros := digitsValue_append_zeros (zeros + 1) digits
    rw [List.replicate_succ', ← List.append_assoc] at hzeros
    rw [hzeros, Decimal.value, Decimal.value, pow_succ]
    push_cast
    rw [List.length_singleton, Nat.cast_one, zpow_neg_one, zpow_natCast]
    ring

theorem writesPoint_among (hdigits : ∀ c ∈ digits, c.isDigit) (hhead : digits.head? ≠ some '0')
    {position : Nat} (hpos : 0 < position) (hlt : position < digits.length) :
    WritesPoint (digits.take position) (digits.drop position)
      (Decimal.value ⟨digitsValue digits, position - digits.length⟩) where
  isWhole := by
    refine ⟨?_, fun c hc => hdigits c (List.mem_of_mem_take hc), fun hzero => ?_⟩
    · rw [Ne, List.take_eq_nil_iff]
      rintro (rfl | rfl)
      · exact absurd hpos (lt_irrefl 0)
      · exact absurd hlt (by simp)
    · rw [List.head?_take, if_neg hpos.ne'] at hzero
      exact absurd hzero hhead
  ne_nil := by
    rw [Ne, List.drop_eq_nil_iff]
    omega
  isDigit c hc := hdigits c (List.mem_of_mem_drop hc)
  value_eq := by
    rw [List.take_append_drop, List.length_drop, Nat.cast_sub hlt.le, neg_sub]

/-- A decimal is written with a point. Where the point is depends on the exponent: in front of
the digits, behind them, or among them. -/
theorem writesPoint_decimalChars {d : Decimal} (hd : 0 < d.digits) :
    ∃ whole fraction, NumberStyle.toml.decimalChars d = whole ++ '.' :: fraction ∧
      WritesPoint whole fraction d.value := by
  obtain ⟨value, exponent⟩ := d
  have hdigits : ∀ c ∈ Nat.toDigits 10 value, c.isDigit := fun _ => isDigit_of_mem_toDigits
  have hvalue : digitsValue (Nat.toDigits 10 value) = value := digitsValue_toDigits value
  have hne : Nat.toDigits 10 value ≠ [] := Nat.toDigits_ne_nil
  have hhead : (Nat.toDigits 10 value).head? ≠ some '0' := head?_toDigits hd
  unfold NumberStyle.decimalChars NumberStyle.positionalChars Decimal.digitChars
  simp only [NumberStyle.toml, if_true]
  generalize Nat.toDigits 10 value = digits at hdigits hvalue hne hhead
  subst hvalue
  have hpos : 0 < digits.length := List.length_pos_iff.mpr hne
  -- The exponent of the first digit is below zero, at or above that of the last one, or between.
  split
  next hfront =>
    have h := writesPoint_front hne hdigits (-(exponent + digits.length - 1) - 1).toNat
    have hexponent : (-((-(exponent + digits.length - 1) - 1).toNat + digits.length) : ℤ) =
        exponent := by omega
    rw [hexponent] at h
    exact ⟨_, _, rfl, h⟩
  next =>
    split
    next hbehind =>
      have h := writesPoint_behind hne hdigits hhead
        ((exponent + digits.length - 1).toNat + 1 - digits.length)
      have hexponent : (((exponent + digits.length - 1).toNat + 1 - digits.length : Nat) : ℤ) =
          exponent := by omega
      rw [hexponent] at h
      exact ⟨_, _, rfl, h⟩
    next hamong =>
      have h := writesPoint_among hdigits hhead
        (Nat.succ_pos (exponent + digits.length - 1).toNat) (by omega)
      have hexponent : (((exponent + digits.length - 1).toNat + 1 : Nat) - digits.length : ℤ) =
          exponent := by omega
      rw [hexponent] at h
      exact ⟨_, _, by rw [List.append_assoc]; rfl, h⟩

/-! ## Words -/

/-- A numeral with its sign. -/
def signed (negative : Bool) (word : List Char) : List Char :=
  if negative then '-' :: word else word

/-- Whether a word is made of digits and points, with a digit first. -/
structure IsNumeral (word : List Char) : Prop where
  starts : ∃ c rest, word = c :: rest ∧ c.isDigit
  isDigit_or : ∀ c ∈ word, c.isDigit ∨ c = '.'

namespace IsNumeral

theorem ne (h : IsNumeral word) {d : Char} (hdigit : ¬ d.isDigit) (hpoint : d ≠ '.') :
    d ∉ word := by
  intro hmem
  rcases h.isDigit_or d hmem with hd | hd
  · exact hdigit hd
  · exact hpoint hd

theorem splitSign (h : IsNumeral word) (negative : Bool) :
    Literal.splitSign (signed negative word) = (negative, word) := by
  obtain ⟨c, rest, rfl, hc⟩ := h.starts
  cases negative with
  | true => rfl
  | false =>
      show Literal.splitSign (c :: rest) = _
      unfold Literal.splitSign
      split
      next heq => exact absurd (List.cons.inj heq).1 (isDigit_ne hc (by decide))
      next heq => exact absurd (List.cons.inj heq).1 (isDigit_ne hc (by decide))
      next => rfl

/-- A numeral is an integer if it is made of digits alone. None names another base. -/
theorem integer? (h : IsNumeral word) (negative : Bool) :
    integer? (signed negative word) = (wholePart? word).map fun digits =>
      if negative then -(digitsValue digits : Int) else digitsValue digits := by
  -- A base is named by a letter, and a numeral has none.
  have hbase : ∀ d rest, d ≠ '.' → ¬ d.isDigit → signed negative word ≠ '0' :: d :: rest := by
    intro d rest hpoint hdigit heq
    cases negative with
    | true => cases heq
    | false =>
        have hmem : d ∈ word := by
          rw [show word = '0' :: d :: rest from heq]
          simp
        exact h.ne hdigit hpoint hmem
  unfold Toml.integer?
  split
  next heq => exact absurd heq (hbase _ _ (by decide) (by decide))
  next heq => exact absurd heq (hbase _ _ (by decide) (by decide))
  next heq => exact absurd heq (hbase _ _ (by decide) (by decide))
  next => rw [h.splitSign]

end IsNumeral

/-- A word in which neither a hyphen nor a colon stands where a date or a time has one is neither
of them. -/
theorem isMoment_eq_false (hhyphen : word[4]? ≠ some '-') (hcolon : word[2]? ≠ some ':') :
    isMoment word = false := by
  have hdate : isDate word = false := by
    unfold isDate
    split
    · simp [hhyphen]
    · rfl
  have hdateTime : isDate (word.take 10) = false := by
    unfold isDate
    split
    · simp [hhyphen]
    · rfl
  have htime : isHourMinute (word.take 5) = false := by
    unfold isHourMinute
    split
    · simp [hcolon]
    · rfl
  have hafter : afterTime? word = none := by
    simp [afterTime?, htime]
  simp [isMoment, hdate, hdateTime, hafter]

/-- A hyphen is at most in front of a numeral. -/
theorem IsNumeral.isMoment (h : IsNumeral word) (negative : Bool) :
    isMoment (signed negative word) = false := by
  have hhyphen : ∀ i : Nat, word[i]? ≠ some '-' := fun i hi =>
    h.ne (by decide) (by decide) (List.mem_of_getElem? hi)
  have hcolon : ∀ i : Nat, word[i]? ≠ some ':' := fun i hi =>
    h.ne (by decide) (by decide) (List.mem_of_getElem? hi)
  cases negative with
  | true => exact isMoment_eq_false (hhyphen 3) (hcolon 1)
  | false => exact isMoment_eq_false (hhyphen 4) (hcolon 2)

theorem IsNumeral.ne_cons (h : IsNumeral word) (negative : Bool) {c : Char} {rest : List Char}
    (hdigit : ¬ c.isDigit) (hhyphen : c ≠ '-') : signed negative word ≠ c :: rest := by
  intro heq
  cases negative with
  | true => exact hhyphen (List.cons.inj heq).1.symm
  | false =>
      obtain ⟨d, tail, rfl, hd⟩ := h.starts
      obtain rfl := (List.cons.inj heq).1
      exact hdigit hd

/-- What is read from a numeral: an integer if it can, and else a floating-point number. -/
theorem IsNumeral.wordValue? (h : IsNumeral word) (negative : Bool) :
    wordValue? (signed negative word) =
      match Toml.integer? (signed negative word), real? (signed negative word) with
      | some n, _ => if -(2 ^ 63) ≤ n && n < 2 ^ 63 then some (.integer n) else none
      | none, some x => some (.real x)
      | none, none => none := by
  rw [Toml.wordValue?, if_neg (h.ne_cons negative (by decide) (by decide)),
    if_neg (h.ne_cons negative (by decide) (by decide)), h.isMoment]
  rfl

/-! ## Integers -/

theorem isNumeral_toDigits (n : Nat) : IsNumeral (Nat.toDigits 10 n) where
  starts := Literal.toDigits_eq_cons n
  isDigit_or _ hc := .inl (isDigit_of_mem_toDigits hc)

theorem toList_toString (n : ℤ) :
    (toString n).toList = signed (n < 0) (Nat.toDigits 10 n.natAbs) := by
  cases n with
  | ofNat n =>
      have hnonneg : ¬ Int.ofNat n < 0 := by simp
      rw [decide_eq_false hnonneg]
      exact (congrArg String.toList Nat.toString_eq_ofList_toDigits).trans (String.toList_ofList)
  | negSucc n =>
      have hneg : Int.negSucc n < 0 := Int.negSucc_lt_zero n
      rw [decide_eq_true hneg]
      show ("-" ++ toString (n + 1)).toList = '-' :: Nat.toDigits 10 (n + 1)
      rw [String.toList_append, Nat.toString_eq_ofList_toDigits]
      exact congrArg ('-' :: ·) String.toList_ofList

/-- The word that is written for an integer is read as it. -/
theorem wordValue?_integer {n : ℤ} (hlow : -(2 ^ 63) ≤ n) (hhigh : n < 2 ^ 63) :
    wordValue? (toString n).toList = some (.integer n) := by
  have hdigits := isNumeral_toDigits n.natAbs
  have hinteger : integer? (signed (n < 0) (Nat.toDigits 10 n.natAbs)) = some n := by
    rw [hdigits.integer?, (isWhole_toDigits _).wholePart?, Option.map_some, digitsValue_toDigits]
    by_cases hneg : n < 0
    · rw [decide_eq_true hneg, if_pos rfl]
      exact congrArg some (by omega)
    · rw [decide_eq_false hneg, if_neg Bool.false_ne_true]
      exact congrArg some (by omega)
  have hinside : (-(2 ^ 63) ≤ n && n < 2 ^ 63) = true := by
    rw [Bool.and_eq_true, decide_eq_true_eq, decide_eq_true_eq]
    exact ⟨hlow, hhigh⟩
  rw [toList_toString, hdigits.wordValue?, hinteger]
  exact if_pos hinside

/-! ## Doubles -/

theorem WritesPoint.isNumeral {v : ℚ} (h : WritesPoint whole fraction v) :
    IsNumeral (whole ++ '.' :: fraction) where
  starts := by
    obtain ⟨c, rest, rfl⟩ := List.exists_cons_of_ne_nil h.isWhole.ne_nil
    exact ⟨c, rest ++ '.' :: fraction, rfl, h.isWhole.isDigit c List.mem_cons_self⟩
  isDigit_or c hc := by
    rcases List.mem_append.mp hc with hc | hc
    · exact .inl (h.isWhole.isDigit c hc)
    · rcases List.mem_cons.mp hc with rfl | hc
      · exact .inr rfl
      · exact .inl (h.isDigit c hc)

theorem integer?_point {v : ℚ} (h : WritesPoint whole fraction v) (negative : Bool) :
    integer? (signed negative (whole ++ '.' :: fraction)) = none := by
  rw [h.isNumeral.integer?, wholePart?,
    wholeDigits?_append h.isWhole.isDigit (by decide) (by decide)]
  rfl

/-- The digits that are written for a finite double are read as it. -/
theorem exists_point {x : Binary64} {negative : Bool} {m : Nat} {e : ℤ}
    (hx : x.value = .finite negative m e) :
    ∃ whole fraction v, WritesPoint whole fraction v ∧
      (NumberStyle.toml.write64 x).toList = signed negative (whole ++ '.' :: fraction) ∧
      Binary64.ofDecimal negative (digitsValue (whole ++ fraction)) (-fraction.length) = x := by
  have htext : (NumberStyle.toml.write64 x).toList = signed negative (
      if m = 0 then NumberStyle.toml.positionalChars ['0'] 0
      else NumberStyle.toml.decimalChars (Decimal.shortest .double .up m e)) := by
    rw [NumberStyle.write64, hx]
    exact String.toList_ofList
  rw [htext]
  rcases Nat.eq_zero_or_pos m with rfl | hm
  · refine ⟨['0'], ['0'], 0, ⟨⟨by simp, by simp, by simp⟩, by simp, by simp, ?_⟩, rfl, ?_⟩
    · simp [Decimal.value, digitsValue, Literal.digitValue]
    · obtain ⟨hnumber, hbits⟩ := BinaryFormat.decode_eq_finite (UInt64.toNat_lt x.bits) hx
      have hleast : e = BinaryFormat.double.leastExponent := hnumber.smallest (by positivity)
      rw [hleast, BinaryFormat.pattern, sub_self] at hbits
      have hzero : BinaryFormat.double.ofDecimal negative (digitsValue (['0'] ++ ['0']))
          (-(['0'] : List Char).length) = x.bits.toNat := by
        rw [hbits]
        cases negative <;> rfl
      rw [Binary64.ofDecimal, hzero, UInt64.ofNat_toNat]
  · obtain ⟨hnumber, -⟩ := BinaryFormat.decode_eq_finite (UInt64.toNat_lt x.bits) hx
    obtain ⟨hdigits, hcontains⟩ : 0 < (Decimal.shortest .double .up m e).digits ∧
        (Decimal.neighbourhood .double m e).Contains (Decimal.shortest .double .up m e).value :=
      Decimal.contains_shortest hm hnumber
    obtain ⟨whole, fraction, hchars, hpoint⟩ := writesPoint_decimalChars hdigits
    rw [← hpoint.value_eq] at hcontains
    refine ⟨whole, fraction, _, hpoint, by rw [if_neg hm.ne', hchars], ?_⟩
    refine Decimal.binary64_ofDecimal_eq hm hx ?_ hcontains
    have hpos : 0 < (Decimal.shortest .double .up m e).value := by
      unfold Decimal.value
      positivity
    rw [← hpoint.value_eq] at hpos
    by_contra hzero
    rw [Nat.pos_iff_ne_zero, not_not] at hzero
    simp [Decimal.value, hzero] at hpos

theorem real?_point {x : Binary64} {negative : Bool} {m : Nat} {e : ℤ}
    (hx : x.value = .finite negative m e) {v : ℚ} (h : WritesPoint whole fraction v)
    (hdecimal : Binary64.ofDecimal negative (digitsValue (whole ++ fraction)) (-fraction.length) =
      x) :
    real? (signed negative (whole ++ '.' :: fraction)) = some x := by
  have hfinite : x ≠ .infinity := by
    rintro rfl
    cases hx
  have hword : ∀ c rest, ¬ Char.isDigit c → c ≠ '-' → whole ++ '.' :: fraction ≠ c :: rest :=
    fun c rest hdigit hhyphen => h.isNumeral.ne_cons false hdigit hhyphen
  unfold real?
  rw [h.isNumeral.splitSign]
  dsimp only
  rw [if_neg (hword _ _ (by decide) (by decide)), if_neg (hword _ _ (by decide) (by decide)),
    decimal?_point h.isWhole h.ne_nil h.isDigit, hdecimal]
  simp [hfinite]

/-- The word that is written for a double is read as it. -/
theorem wordValue?_real {x : Binary64} (hx : x.IsCanonical) :
    wordValue? (NumberStyle.toml.write64 x).toList = some (.real x) := by
  cases hvalue : x.value with
  | nan negative =>
      rw [NumberStyle.write64, hvalue, hx negative hvalue]
      cases negative <;> rfl
  | infinite negative =>
      have hbits := BinaryFormat.decode_eq_infinite (UInt64.toNat_lt x.bits) hvalue
      have hinfinite : x = if negative then Binary64.infinity.negate else .infinity := by
        have hpattern : x = ⟨UInt64.ofNat x.bits.toNat⟩ := by rw [UInt64.ofNat_toNat]
        rw [hpattern, hbits]
        cases negative <;> rfl
      rw [NumberStyle.write64, hvalue, hinfinite]
      cases negative <;> rfl
  | finite negative m e =>
      obtain ⟨whole, fraction, v, hpoint, htext, hdecimal⟩ := exists_point hvalue
      rw [htext, hpoint.isNumeral.wordValue?, integer?_point hpoint,
        real?_point hvalue hpoint hdecimal]

/-- A numeral is a word. -/
theorem IsNumeral.isWordChar {word : List Char} (h : IsNumeral word) (negative : Bool) :
    ∀ c ∈ signed negative word, isWordChar c := by
  have hchars : ∀ c ∈ word, Toml.isWordChar c := by
    intro c hc
    rcases h.isDigit_or c hc with hdigit | rfl
    · simp [Toml.isWordChar, isNameChar, Char.isAlphanum, hdigit]
    · decide
  cases negative with
  | true =>
      intro c hc
      rcases List.mem_cons.mp hc with rfl | hc
      · decide
      · exact hchars c hc
  | false => exact hchars

theorem isWordChar_toString (n : ℤ) : ∀ c ∈ (toString n).toList, isWordChar c := by
  rw [toList_toString]
  exact (isNumeral_toDigits _).isWordChar _

theorem isWordChar_write64 (x : Binary64) :
    ∀ c ∈ (NumberStyle.toml.write64 x).toList, isWordChar c := by
  cases hvalue : x.value with
  | nan negative =>
      rw [NumberStyle.write64, hvalue]
      cases negative <;> exact List.all_eq_true.mp rfl
  | infinite negative =>
      rw [NumberStyle.write64, hvalue]
      cases negative <;> exact List.all_eq_true.mp rfl
  | finite negative m e =>
      obtain ⟨whole, fraction, v, hpoint, htext, -⟩ := exists_point hvalue
      rw [htext]
      exact hpoint.isNumeral.isWordChar negative

end Toml

end VoltageStats
