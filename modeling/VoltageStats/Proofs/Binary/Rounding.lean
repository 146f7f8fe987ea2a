import Mathlib
import VoltageStats.Binary.Format

/-!
# Rounding to binary formats

A quotient is rounded to the nearest integer, a tie going to the even one (`Rounds`), and to the
nearest number of a format: what lies within half a unit of the last place of a number is rounded
to its pattern (`magnitudeOfRatio_eq`).
-/

namespace VoltageStats

variable {numerator denominator : Nat} {v : ℚ} {m n : Nat}

/-! ## Integers -/

/-- Whether an integer is the one that a rational number is rounded to: none is nearer, and it is
even if another is as near. -/
structure Rounds (v : ℚ) (n : Nat) : Prop where
  low : (n : ℚ) - 1 / 2 ≤ v
  high : v ≤ n + 1 / 2
  tie : v = n - 1 / 2 ∨ v = n + 1 / 2 → n % 2 = 0

/-- Two integers that a number is rounded to are the same: else it would lie in the middle
between them, and both would be even. -/
theorem Rounds.unique (hm : Rounds v m) (hn : Rounds v n) : m = n := by
  by_contra hne
  wlog hlt : m < n generalizing m n
  · exact this hn hm (Ne.symm hne) (by omega)
  have hle : (m : ℚ) + 1 ≤ n := by exact_mod_cast hlt
  have hhigh := hm.high
  have hlow := hn.low
  have hnext : (n : ℚ) = m + 1 := by linarith
  have hm2 := hm.tie (.inr (by linarith))
  have hn2 := hn.tie (.inl (by linarith))
  have : n = m + 1 := by exact_mod_cast hnext
  omega

theorem rounds_roundHalfEven (hd : 0 < denominator) :
    Rounds ((numerator : ℚ) / denominator) (roundHalfEven numerator denominator) := by
  have hdq : (0 : ℚ) < denominator := by exact_mod_cast hd
  have hdiv : (numerator : ℚ) / denominator =
      (numerator / denominator : Nat) + (numerator % denominator : Nat) / (denominator : ℚ) := by
    rw [div_eq_iff hdq.ne', add_mul, div_mul_cancel₀ _ hdq.ne']
    exact_mod_cast (Nat.div_add_mod' numerator denominator).symm
  rw [hdiv, roundHalfEven]
  generalize numerator / denominator = quotient
  have hmod := Nat.mod_lt numerator hd
  generalize numerator % denominator = remainder at hmod
  have hnonneg : (0 : ℚ) ≤ remainder / denominator := by positivity
  have hone : (remainder : ℚ) / denominator < 1 := by
    rw [div_lt_one hdq]
    exact_mod_cast hmod
  have hbelow : 2 * remainder < denominator ↔ (remainder : ℚ) / denominator < 1 / 2 := by
    rw [div_lt_iff₀ hdq, ← @Nat.cast_lt ℚ]
    push_cast
    constructor <;> intro h <;> linarith
  have habove : denominator < 2 * remainder ↔ 1 / 2 < (remainder : ℚ) / denominator := by
    rw [lt_div_iff₀ hdq, ← @Nat.cast_lt ℚ]
    push_cast
    constructor <;> intro h <;> linarith
  simp only [hbelow, habove]
  generalize (remainder : ℚ) / denominator = part at hnonneg hone
  split_ifs with hless hmore heven
  · exact ⟨by linarith, by linarith, by rintro (h | h) <;> linarith⟩
  · exact ⟨by push_cast; linarith, by push_cast; linarith, by
      push_cast; rintro (h | h) <;> linarith⟩
  · exact ⟨by linarith, by linarith, fun _ => heven⟩
  · exact ⟨by push_cast; linarith, by push_cast; linarith, fun _ => by omega⟩

/-! ## Powers -/

/-- A power with an exponent that is not negative is a natural number. -/
theorem zpow_of_nonneg (base : Nat) {e : ℤ} (he : 0 ≤ e) :
    (base : ℚ) ^ e = (base ^ e.toNat : Nat) := by
  lift e to ℕ using he
  simp

/-- A power with a negative exponent divides by a natural number. -/
theorem zpow_of_neg (base : Nat) {e : ℤ} (he : e < 0) :
    (base : ℚ) ^ e = 1 / (base ^ (-e).toNat : Nat) := by
  have hneg := zpow_of_nonneg base (e := -e) (by omega)
  rw [← hneg, zpow_neg, one_div, inv_inv]

theorem log2_spec (hn : 0 < n) :
    (2 : ℚ) ^ (n.log2 : ℤ) ≤ n ∧ (n : ℚ) < 2 ^ ((n.log2 : ℤ) + 1) := by
  have hlow : 2 ^ n.log2 ≤ n := Nat.log2_self_le hn.ne'
  have hhigh : n < 2 ^ (n.log2 + 1) := Nat.lt_log2_self
  constructor
  · rw [zpow_natCast]
    exact_mod_cast hlow
  · rw [← Nat.cast_succ, zpow_natCast]
    exact_mod_cast hhigh

/-- The logarithm of a quotient, rounded down, is the exponent of the power of two at or below
it. -/
theorem floorLog2_spec (hn : 0 < numerator) (hd : 0 < denominator) :
    (2 : ℚ) ^ BinaryFormat.floorLog2 numerator denominator ≤ numerator / denominator ∧
      (numerator : ℚ) / denominator < 2 ^ (BinaryFormat.floorLog2 numerator denominator + 1) := by
  have hdq : (0 : ℚ) < denominator := by exact_mod_cast hd
  obtain ⟨hnlow, hnhigh⟩ := log2_spec hn
  obtain ⟨hdlow, hdhigh⟩ := log2_spec hd
  unfold BinaryFormat.floorLog2
  generalize (numerator.log2 : ℤ) = a at *
  generalize (denominator.log2 : ℤ) = b at *
  have hlow : (2 : ℚ) ^ (a - b - 1) ≤ numerator / denominator := by
    rw [le_div_iff₀ hdq]
    calc (2 : ℚ) ^ (a - b - 1) * denominator ≤ 2 ^ (a - b - 1) * 2 ^ (b + 1) := by gcongr
      _ = 2 ^ a := by rw [← zpow_add₀ two_ne_zero]; congr 1; omega
      _ ≤ numerator := hnlow
  have hhigh : (numerator : ℚ) / denominator < 2 ^ (a - b + 1) := by
    rw [div_lt_iff₀ hdq]
    calc (numerator : ℚ) < 2 ^ (a + 1) := hnhigh
      _ = 2 ^ (a - b + 1) * 2 ^ b := by rw [← zpow_add₀ two_ne_zero]; congr 1; omega
      _ ≤ 2 ^ (a - b + 1) * denominator := by gcongr
  have hreached : (if 0 ≤ a - b then denominator * 2 ^ (a - b).toNat ≤ numerator
      else denominator ≤ numerator * 2 ^ (-(a - b)).toNat) ↔
        (2 : ℚ) ^ (a - b) ≤ numerator / denominator := by
    rw [le_div_iff₀ hdq]
    split_ifs with hsign
    · have hpow := zpow_of_nonneg 2 hsign
      push_cast at hpow
      rw [hpow, ← @Nat.cast_le ℚ]
      push_cast
      rw [mul_comm]
    · have hpow := zpow_of_neg 2 (not_le.mp hsign)
      push_cast at hpow
      rw [hpow, ← @Nat.cast_le ℚ, one_div_mul_eq_div, div_le_iff₀ (by positivity)]
      push_cast
      rfl
  simp only [hreached]
  split_ifs with h
  · exact ⟨h, hhigh⟩
  · rw [sub_add_cancel]
    exact ⟨hlow, not_le.mp h⟩

theorem floorLog2_lt {k : Nat} {e : ℤ} (hn : 0 < numerator) (hd : 0 < denominator)
    (h : (numerator : ℚ) / denominator / 2 ^ e < 2 ^ k) :
    BinaryFormat.floorLog2 numerator denominator < k + e := by
  rw [← zpow_lt_zpow_iff_right₀ (one_lt_two (α := ℚ))]
  calc (2 : ℚ) ^ BinaryFormat.floorLog2 numerator denominator ≤ numerator / denominator :=
        (floorLog2_spec hn hd).1
    _ < 2 ^ k * 2 ^ e := (div_lt_iff₀ (by positivity)).mp h
    _ = 2 ^ (k + e) := by rw [zpow_add₀ two_ne_zero, zpow_natCast]

theorem le_floorLog2 {k : Nat} {e : ℤ} (hn : 0 < numerator) (hd : 0 < denominator)
    (h : (2 : ℚ) ^ k ≤ numerator / denominator / 2 ^ e) :
    k + e ≤ BinaryFormat.floorLog2 numerator denominator := by
  rw [← Int.lt_add_one_iff, ← zpow_lt_zpow_iff_right₀ (one_lt_two (α := ℚ))]
  calc (2 : ℚ) ^ (k + e) = 2 ^ k * 2 ^ e := by rw [zpow_add₀ two_ne_zero, zpow_natCast]
    _ ≤ numerator / denominator := (le_div_iff₀ (by positivity)).mp h
    _ < 2 ^ (BinaryFormat.floorLog2 numerator denominator + 1) := (floorLog2_spec hn hd).2

/-! ## Numbers of a format -/

namespace BinaryFormat

variable {f : BinaryFormat} {e : ℤ}

/-- The pattern of `m * 2 ^ e`, without the sign. -/
def pattern (f : BinaryFormat) (m : Nat) (e : ℤ) : Nat :=
  (e - f.leastExponent).toNat * 2 ^ f.fractionBits + m

/-- Whether `m * 2 ^ e` is a finite number of a format, divided as its pattern is. -/
structure IsNumber (f : BinaryFormat) (m : Nat) (e : ℤ) : Prop where
  lt : m < 2 ^ (f.fractionBits + 1)
  least : f.leastExponent ≤ e
  /-- Only the smallest numbers have no leading bit. -/
  smallest : m < 2 ^ f.fractionBits → e = f.leastExponent
  finite : f.pattern m e < f.infinityBits

/-- The fields of a pattern: the sign, the exponent and the fraction. -/
theorem bits_eq {bits : Nat} (hbits : bits < 2 * f.signBit) :
    bits = (if f.signBit ≤ bits then f.signBit else 0) +
      (bits / 2 ^ f.fractionBits % 2 ^ f.exponentBits * 2 ^ f.fractionBits +
        bits % 2 ^ f.fractionBits) := by
  have hpos : (0 : Nat) < 2 ^ f.fractionBits := by positivity
  rw [signBit, pow_add] at *
  generalize (2 : Nat) ^ f.exponentBits = fields at *
  generalize (2 : Nat) ^ f.fractionBits = fractions at *
  have hdivide := Nat.div_add_mod' bits fractions
  have hlt : bits / fractions < 2 * fields := by
    rw [Nat.div_lt_iff_lt_mul hpos]
    linarith
  have hsign : fields * fractions ≤ bits ↔ fields ≤ bits / fractions :=
    (Nat.le_div_iff_mul_le hpos).symm
  simp only [hsign]
  generalize bits / fractions = quotient at *
  split_ifs with hnegative
  · obtain ⟨field, rfl⟩ := Nat.exists_eq_add_of_le hnegative
    rw [Nat.add_mod_left, Nat.mod_eq_of_lt (by omega)]
    linarith
  · rw [Nat.mod_eq_of_lt (by omega)]
    linarith

/-- A number determines its pattern. -/
theorem decode_eq_finite {bits : Nat} {negative : Bool} (hbits : bits < 2 * f.signBit)
    (h : f.decode bits = .finite negative m e) :
    f.IsNumber m e ∧ bits = (if negative then f.signBit else 0) + f.pattern m e := by
  have heq := bits_eq hbits
  have hfraction : bits % 2 ^ f.fractionBits < 2 ^ f.fractionBits := Nat.mod_lt _ (by positivity)
  have hfield : bits / 2 ^ f.fractionBits % 2 ^ f.exponentBits < 2 ^ f.exponentBits :=
    Nat.mod_lt _ (by positivity)
  unfold decode at h
  dsimp only at h
  generalize bits / 2 ^ f.fractionBits % 2 ^ f.exponentBits = field at h heq hfield
  generalize bits % 2 ^ f.fractionBits = fraction at h heq hfraction
  split_ifs at h with htop _ hzero
  · obtain ⟨rfl, rfl, rfl⟩ := BinaryValue.finite.inj h
    have hpattern : f.pattern fraction f.leastExponent = fraction := by simp [pattern]
    refine ⟨⟨?_, le_rfl, fun _ => rfl, ?_⟩, ?_⟩
    · rw [pow_succ]
      omega
    · have hpos : 0 < f.topExponentField := by omega
      rw [hpattern, infinityBits]
      exact hfraction.trans_le (Nat.le_mul_of_pos_left _ hpos)
    · simpa [hpattern, hzero] using heq
  · obtain ⟨rfl, rfl, rfl⟩ := BinaryValue.finite.inj h
    have hpattern : f.pattern (fraction + 2 ^ f.fractionBits) (f.leastExponent + field - 1) =
        field * 2 ^ f.fractionBits + fraction := by
      obtain ⟨k, rfl⟩ := Nat.exists_eq_add_one_of_ne_zero hzero
      have hk : (f.leastExponent + ((k + 1 : Nat) : ℤ) - 1 - f.leastExponent).toNat = k := by omega
      rw [pattern, hk]
      ring
    refine ⟨⟨?_, by omega, fun hlt => by omega, ?_⟩, ?_⟩
    · rw [pow_succ]
      omega
    · rw [topExponentField] at htop
      rw [hpattern, infinityBits, topExponentField]
      calc field * 2 ^ f.fractionBits + fraction < (field + 1) * 2 ^ f.fractionBits := by
            rw [Nat.succ_mul]
            omega
        _ ≤ (2 ^ f.exponentBits - 1) * 2 ^ f.fractionBits := Nat.mul_le_mul_right _ (by omega)
    · simpa [hpattern] using heq

theorem decode_eq_infinite {bits : Nat} {negative : Bool} (hbits : bits < 2 * f.signBit)
    (h : f.decode bits = .infinite negative) :
    bits = (if negative then f.signBit else 0) + f.infinityBits := by
  have heq := bits_eq hbits
  unfold decode at h
  dsimp only at h
  split_ifs at h with htop hfraction
  obtain rfl := BinaryValue.infinite.inj h
  rw [htop, hfraction, Nat.add_zero, ← infinityBits] at heq
  simpa using heq

/-- A pattern that is no number is above that of infinity, next to the sign. -/
theorem lt_of_decode_eq_nan {bits : Nat} {negative : Bool} (hbits : bits < 2 * f.signBit)
    (h : f.decode bits = .nan negative) :
    (if f.signBit ≤ bits then f.signBit else 0) + f.infinityBits < bits := by
  have heq := bits_eq hbits
  unfold decode at h
  dsimp only at h
  split_ifs at h with htop hfraction
  rw [htop, ← infinityBits] at heq
  omega

theorem infinityBits_lt_signBit (f : BinaryFormat) : f.infinityBits < f.signBit := by
  rw [infinityBits, signBit, pow_add, topExponentField]
  exact Nat.mul_lt_mul_of_pos_right (Nat.sub_lt (by positivity) one_pos) (by positivity)

/-- A sign with no more than the pattern of infinity is a number or an infinity. -/
theorem decode_ne_nan {negative sign : Bool} (hm : m ≤ f.infinityBits) :
    f.decode ((if negative then f.signBit else 0) + m) ≠ .nan sign := by
  have hlt := f.infinityBits_lt_signBit
  intro h
  have hbits : (if negative then f.signBit else 0) + m < 2 * f.signBit := by
    split_ifs <;> omega
  have habove := lt_of_decode_eq_nan hbits h
  split_ifs at habove <;> omega

theorem magnitudeOfRatio_le (f : BinaryFormat) (numerator denominator : Nat) :
    f.magnitudeOfRatio numerator denominator ≤ f.infinityBits := by
  unfold magnitudeOfRatio
  split_ifs
  · exact Nat.zero_le _
  · exact min_le_right _ _

theorem exists_ofRatio (f : BinaryFormat) (negative : Bool) (numerator denominator : Nat) :
    ∃ m ≤ f.infinityBits,
      f.ofRatio negative numerator denominator = (if negative then f.signBit else 0) + m :=
  ⟨_, f.magnitudeOfRatio_le numerator denominator, rfl⟩

/-- A rounded decimal is a sign with no more than the pattern of infinity. -/
theorem exists_ofDecimal (f : BinaryFormat) (negative : Bool) (digits : Nat) (exponent : ℤ) :
    ∃ m ≤ f.infinityBits,
      f.ofDecimal negative digits exponent = (if negative then f.signBit else 0) + m := by
  unfold ofDecimal
  dsimp only
  split
  · exact f.exists_ofRatio negative 0 1
  · split
    · exact ⟨_, le_rfl, rfl⟩
    · split
      · exact f.exists_ofRatio negative _ 1
      · exact f.exists_ofRatio negative digits _

theorem rounds_significand (hd : 0 < denominator) (e : ℤ) :
    Rounds ((numerator : ℚ) / denominator / 2 ^ e)
      (if 0 ≤ e then roundHalfEven numerator (denominator * 2 ^ e.toNat)
        else roundHalfEven (numerator * 2 ^ (-e).toNat) denominator) := by
  split_ifs with he
  · have hpow := zpow_of_nonneg 2 he
    have hscaled : 0 < denominator * 2 ^ e.toNat := by positivity
    have h : Rounds ((numerator : ℚ) / ((denominator * 2 ^ e.toNat : Nat) : ℚ))
        (roundHalfEven numerator (denominator * 2 ^ e.toNat)) := rounds_roundHalfEven hscaled
    push_cast at h hpow
    rwa [hpow, div_div]
  · have hpow := zpow_of_neg 2 (not_le.mp he)
    have h : Rounds (((numerator * 2 ^ (-e).toNat : Nat) : ℚ) / denominator)
        (roundHalfEven (numerator * 2 ^ (-e).toNat) denominator) := rounds_roundHalfEven hd
    push_cast at h hpow
    rwa [hpow, div_div_eq_mul_div, div_one, div_mul_eq_mul_div]

/-- The pattern of a quotient, once its exponent is known. -/
theorem magnitudeOfRatio_of_rounds (hn : 0 < numerator) (hd : 0 < denominator)
    (he : max (floorLog2 numerator denominator - f.fractionBits) f.leastExponent = e)
    (hrounds : Rounds ((numerator : ℚ) / denominator / 2 ^ e) m)
    (hfinite : f.pattern m e < f.infinityBits) :
    f.magnitudeOfRatio numerator denominator = f.pattern m e := by
  have hsignificand := (rounds_significand hd e).unique hrounds
  simp only [magnitudeOfRatio, if_neg hn.ne', he, hsignificand]
  exact min_eq_left hfinite.le

/-- A quotient that is not below the exponent of a number is rounded to its pattern, if the number
is the nearest one with this exponent. -/
theorem magnitudeOfRatio_of_reached (hnumber : f.IsNumber m e) (hn : 0 < numerator)
    (hd : 0 < denominator) (hrounds : Rounds ((numerator : ℚ) / denominator / 2 ^ e) m)
    (hreached : (2 : ℚ) ^ f.fractionBits ≤ numerator / denominator / 2 ^ e ∨
      e = f.leastExponent) :
    f.magnitudeOfRatio numerator denominator = f.pattern m e := by
  have hleast := hnumber.least
  have hhigh := hrounds.high
  have hlt : (m : ℚ) + 1 ≤ 2 ^ (f.fractionBits + 1) := by exact_mod_cast hnumber.lt
  have habove := floorLog2_lt hn hd (k := f.fractionBits + 1) (e := e) (by linarith)
  push_cast at habove
  refine magnitudeOfRatio_of_rounds hn hd ?_ hrounds hnumber.finite
  rcases hreached with hreached | rfl
  · have hbelow := le_floorLog2 hn hd hreached
    omega
  · omega

/-- A power of two as a number with the exponent below. -/
theorem pattern_two_pow (hleast : f.leastExponent < e) :
    f.pattern (2 ^ f.fractionBits) e = f.pattern (2 ^ (f.fractionBits + 1)) (e - 1) := by
  have hstep : (e - f.leastExponent).toNat = (e - 1 - f.leastExponent).toNat + 1 := by omega
  rw [pattern, pattern, hstep]
  ring

/-- A quotient just below a power of two is rounded to it, if it is nearer to it than to the number
before. -/
theorem magnitudeOfRatio_of_below (hfraction : 0 < f.fractionBits)
    (hnumber : f.IsNumber (2 ^ f.fractionBits) e) (hn : 0 < numerator) (hd : 0 < denominator)
    (hleast : f.leastExponent < e)
    (hbelow : (numerator : ℚ) / denominator / 2 ^ e < 2 ^ f.fractionBits)
    (hquarter : (2 : ℚ) ^ f.fractionBits - 1 / 4 ≤ numerator / denominator / 2 ^ e) :
    f.magnitudeOfRatio numerator denominator = f.pattern (2 ^ f.fractionBits) e := by
  have habove := floorLog2_lt hn hd hbelow
  have hhalf : (2 : ℚ) ^ (f.fractionBits - 1) ≤ numerator / denominator / 2 ^ e := by
    have hdouble : (2 : ℚ) ^ f.fractionBits = 2 ^ (f.fractionBits - 1) * 2 := by
      rw [← pow_succ, Nat.sub_add_cancel hfraction]
    have hone : (1 : ℚ) ≤ 2 ^ (f.fractionBits - 1) := one_le_pow₀ one_le_two
    linarith
  have hreached := le_floorLog2 hn hd hhalf
  have hfinite := hnumber.finite
  rw [pattern_two_pow hleast] at hfinite ⊢
  refine magnitudeOfRatio_of_rounds hn hd (by omega) ?_ hfinite
  have hscale : (numerator : ℚ) / denominator / 2 ^ (e - 1) =
      2 * (numerator / denominator / 2 ^ e) := by
    rw [zpow_sub_one₀ two_ne_zero]
    field_simp
  rw [hscale]
  refine ⟨?_, ?_, fun _ => by rw [pow_succ, Nat.mul_mod_left]⟩
  · push_cast
    rw [pow_succ]
    linarith
  · push_cast
    rw [pow_succ]
    linarith

/-- A quotient between the middles of the gaps around a number is rounded to its pattern. The gap
below a power of two is half as wide. -/
theorem magnitudeOfRatio_eq (hfraction : 0 < f.fractionBits) (hnumber : f.IsNumber m e)
    (hn : 0 < numerator) (hd : 0 < denominator)
    (hrounds : Rounds ((numerator : ℚ) / denominator / 2 ^ e) m)
    (hnarrow : m = 2 ^ f.fractionBits → f.leastExponent < e →
      (m : ℚ) - 1 / 4 ≤ (numerator : ℚ) / denominator / 2 ^ e) :
    f.magnitudeOfRatio numerator denominator = f.pattern m e := by
  by_cases hreached : (2 : ℚ) ^ f.fractionBits ≤ numerator / denominator / 2 ^ e ∨
      e = f.leastExponent
  · exact magnitudeOfRatio_of_reached hnumber hn hd hrounds hreached
  · -- The number is the power of two that the quotient does not reach.
    obtain ⟨hbelow, hne⟩ := not_or.mp hreached
    rw [not_le] at hbelow
    have hlow := hrounds.low
    have hleast := hnumber.least
    have hleading : 2 ^ f.fractionBits ≤ m := not_lt.mp fun h => hne (hnumber.smallest h)
    have hle : m ≤ 2 ^ f.fractionBits := by
      have h : (m : ℚ) < 2 ^ f.fractionBits + 1 := by linarith
      exact Nat.lt_succ_iff.mp (by exact_mod_cast h)
    obtain rfl : m = 2 ^ f.fractionBits := le_antisymm hle hleading
    have hquarter := hnarrow rfl (by omega)
    push_cast at hquarter
    exact magnitudeOfRatio_of_below hfraction hnumber hn hd (by omega) hbelow hquarter

end BinaryFormat

end VoltageStats
