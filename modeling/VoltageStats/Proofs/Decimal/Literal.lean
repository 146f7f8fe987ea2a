import Mathlib
import VoltageStats.Decimal.Literal

/-!
# Digits read back

The digits that write a natural number are read as it: as a run of digits that ends where something
else begins, in base ten, and as a positional value.
-/

namespace VoltageStats.Literal

/-- A digit is none of the other characters. -/
theorem isDigit_ne {c d : Char} (hc : c.isDigit) (hd : ¬ d.isDigit) : c ≠ d := by
  rintro rfl
  exact hd hc

/-! ## Runs of digits -/

/-- A character is taken by itself unless an underscore follows it. -/
theorem digitRun_cons (isDigit : Char → Bool) {c : Char} {rest : List Char}
    (hrest : ∀ tail, rest ≠ '_' :: tail) :
    digitRun isDigit (c :: rest) =
      if isDigit c then (c :: (digitRun isDigit rest).1, (digitRun isDigit rest).2)
      else ([], c :: rest) :=
  digitRun.eq_2 isDigit c rest fun d tail h => hrest (d :: tail) h

/-- A character that is no digit ends a run, whatever follows it. -/
theorem digitRun_of_not_isDigit {c : Char} {rest : List Char} (hc : ¬ c.isDigit) :
    digitRun Char.isDigit (c :: rest) = ([], c :: rest) := by
  cases rest with
  | nil => simp [digitRun, hc]
  | cons d rest =>
      by_cases hd : d = '_'
      · subst hd
        cases rest <;> simp [digitRun, hc]
      · rw [digitRun_cons _ fun _ h => hd (List.cons.inj h).1, if_neg hc]

/-- Digits are a run up to what is neither a digit nor an underscore. -/
theorem digitRun_append {digits tail : List Char} (hdigits : ∀ c ∈ digits, c.isDigit)
    (htail : ∀ c ∈ tail.head?, ¬ c.isDigit ∧ c ≠ '_') :
    digitRun Char.isDigit (digits ++ tail) = (digits, tail) := by
  induction digits with
  | nil =>
      cases tail with
      | nil => rfl
      | cons d tail => exact digitRun_of_not_isDigit (htail d rfl).1
  | cons c digits ih =>
      have hc : c.isDigit := hdigits c List.mem_cons_self
      have hnext : ∀ rest, digits ++ tail ≠ '_' :: rest := by
        intro rest h
        cases digits with
        | nil => exact (htail '_' (by rw [← List.nil_append tail, h]; rfl)).2 rfl
        | cons d digits =>
            obtain rfl := (List.cons.inj h).1
            have := hdigits '_' (by simp)
            contradiction
      rw [List.cons_append, digitRun_cons _ hnext, if_pos hc,
        ih fun d hd => hdigits d (List.mem_cons_of_mem c hd)]

/-! ## Digits in base ten -/

theorem digit?_eq_some {c : Char} (hc : c.isDigit) : digit? c = some (c.toNat - '0'.toNat) := by
  rw [digit?, if_pos hc]

/-- A digit in base ten is below ten. -/
theorem digit_lt_ten {c : Char} (hc : c.isDigit) : c.toNat - '0'.toNat < 10 := by
  simp only [Char.isDigit, Bool.and_eq_true, decide_eq_true_eq] at hc
  have hle : c.val.toNat ≤ 57 := hc.2
  have htoNat : c.toNat = c.val.toNat := rfl
  have hzero : '0'.toNat = 48 := rfl
  omega

/-- Reading digits one after the other goes on from the number that those before them write. -/
theorem foldlM_digits {digits : List Char} (hdigits : ∀ c ∈ digits, c.isDigit) (start : Nat) :
    digits.foldlM (fun value c => do
      let digit ← digit? c
      if digit < 10 then some (value * 10 + digit) else Option.none) start =
    some (Nat.ofDigitChars 10 digits start) := by
  induction digits generalizing start with
  | nil => rfl
  | cons c digits ih =>
      have hc : c.isDigit := hdigits c List.mem_cons_self
      have htail := ih fun d hd => hdigits d (List.mem_cons_of_mem c hd)
      simp only [Option.bind_eq_bind] at htail
      simp only [List.foldlM_cons, digit?_eq_some hc, Option.bind_eq_bind, Option.bind_some,
        if_pos (digit_lt_ten hc), htail, Nat.ofDigitChars_cons, Nat.mul_comm]

theorem isDigit_of_mem_toDigits {n : Nat} {c : Char} (hc : c ∈ Nat.toDigits 10 n) : c.isDigit :=
  Nat.isDigit_of_mem_toDigits (by decide) (by decide) hc

theorem digitsIn?_toDigits (n : Nat) : digitsIn? 10 (Nat.toDigits 10 n) = some n := by
  rw [digitsIn?, if_neg Nat.toDigits_ne_nil, foldlM_digits fun _ => isDigit_of_mem_toDigits,
    Nat.ofDigitChars_ten_toDigits]

/-- The characters of a number start with a digit. -/
theorem toDigits_eq_cons (n : Nat) :
    ∃ c digits, Nat.toDigits 10 n = c :: digits ∧ c.isDigit := by
  cases h : Nat.toDigits 10 n with
  | nil => exact absurd h Nat.toDigits_ne_nil
  | cons c digits =>
      exact ⟨c, digits, rfl, isDigit_of_mem_toDigits (n := n) (by rw [h]; exact List.mem_cons_self)⟩

/-! ## Positional values -/

theorem digitsValue_eq (digits : List Char) : digitsValue digits = Nat.ofDigitChars 10 digits 0 :=
  Nat.ofDigitChars_eq_foldl.symm

@[simp] theorem digitsValue_toDigits (n : Nat) : digitsValue (Nat.toDigits 10 n) = n := by
  rw [digitsValue_eq, Nat.ofDigitChars_ten_toDigits]

/-- Zeros in front of digits count nothing. -/
theorem digitsValue_zeros_append (count : Nat) (digits : List Char) :
    digitsValue (List.replicate count '0' ++ digits) = digitsValue digits := by
  rw [digitsValue_eq, digitsValue_eq, Nat.ofDigitChars_append, Nat.ofDigitChars_replicate_zero,
    mul_zero]

/-- Each zero after digits multiplies by ten. -/
theorem digitsValue_append_zeros (count : Nat) (digits : List Char) :
    digitsValue (digits ++ List.replicate count '0') = 10 ^ count * digitsValue digits := by
  rw [digitsValue_eq, digitsValue_eq, Nat.ofDigitChars_append, Nat.ofDigitChars_replicate_zero]

/-- A number has no zeros in front, apart from zero itself. -/
theorem head?_toDigits {n : Nat} (hn : 0 < n) : (Nat.toDigits 10 n).head? ≠ some '0' := by
  induction n using Nat.strongRecOn with
  | ind n ih =>
      rcases lt_or_ge n 10 with hlt | hge
      · rw [Nat.toDigits_of_lt_base hlt]
        interval_cases n <;> decide
      · rw [Nat.toDigits_of_base_le (by decide) hge,
          List.head?_append_of_ne_nil _ Nat.toDigits_ne_nil]
        exact ih (n / 10) (Nat.div_lt_self hn (by decide)) (Nat.div_pos hge (by decide))

end VoltageStats.Literal
