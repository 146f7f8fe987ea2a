import VoltageStats.Proofs.Binary.Rounding

/-!
# Canonical doubles

Of the patterns that are no number only one has a text, up to the sign. Rounding yields no pattern
of that kind (`isCanonical_ofDecimal`, `isCanonical_ofInt`), and finite patterns are of course none
(`isCanonical_of_isFinite`).
-/

namespace VoltageStats.Binary64

variable {x : Binary64}

/-- Whether a pattern is the only one that is no number, up to the sign, or no such pattern. -/
def IsCanonical (x : Binary64) : Prop :=
  ∀ negative, x.value = .nan negative → x = if negative then nan.negate else nan

/-- A sign with no more than the pattern of infinity is a number or an infinity. -/
theorem isCanonical_ofNat {negative : Bool} {m : Nat}
    (hm : m ≤ BinaryFormat.double.infinityBits) :
    IsCanonical ⟨UInt64.ofNat ((if negative then BinaryFormat.double.signBit else 0) + m)⟩ := by
  intro sign h
  have hinfinity : BinaryFormat.double.infinityBits < 2 ^ 63 := by decide
  have hsign : BinaryFormat.double.signBit = 2 ^ 63 := rfl
  have hlt : (if negative then BinaryFormat.double.signBit else 0) + m < 2 ^ 64 := by
    split_ifs <;> omega
  rw [value, UInt64.toNat_ofNat', Nat.mod_eq_of_lt hlt] at h
  exact absurd h (BinaryFormat.decode_ne_nan hm)

theorem isCanonical_ofDecimal (negative : Bool) (digits : Nat) (exponent : Int) :
    (ofDecimal negative digits exponent).IsCanonical := by
  obtain ⟨m, hm, hbits⟩ := BinaryFormat.double.exists_ofDecimal negative digits exponent
  rw [ofDecimal, hbits]
  exact isCanonical_ofNat hm

theorem isCanonical_ofInt (n : Int) : (ofInt n).IsCanonical := by
  obtain ⟨m, hm, hbits⟩ := BinaryFormat.double.exists_ofRatio (n < 0) n.natAbs 1
  rw [ofInt, hbits]
  exact isCanonical_ofNat hm

theorem isCanonical_infinity (negative : Bool) :
    (if negative then infinity.negate else infinity).IsCanonical := by
  intro sign h
  cases negative <;> cases h

theorem isCanonical_nan (negative : Bool) :
    (if negative then nan.negate else nan).IsCanonical := by
  intro sign h
  cases negative <;> cases h <;> rfl

/-! ## Finite patterns -/

/-- The field of the exponent. -/
def exponentField (x : Binary64) : Nat := x.bits.toNat / 2 ^ 52 % 2 ^ 11

theorem and_exponentMask (n : Nat) : n &&& (2047 <<< 52) = (n / 2 ^ 52 % 2 ^ 11) <<< 52 := by
  rw [← Nat.and_two_pow_sub_one_eq_mod, ← Nat.shiftRight_eq_div_pow]
  refine Nat.eq_of_testBit_eq fun i => ?_
  simp only [Nat.testBit_and, Nat.testBit_shiftLeft, Nat.testBit_shiftRight]
  by_cases h : 52 ≤ i
  · simp [h]
  · simp [h]

theorem isFinite_iff : x.isFinite ↔ x.exponentField ≠ 2047 := by
  have hmasked : (x.bits &&& 0x7ff0000000000000).toNat = x.exponentField <<< 52 := by
    rw [UInt64.toNat_and]
    exact and_exponentMask x.bits.toNat
  have hmask : (0x7ff0000000000000 : UInt64).toNat = 2047 <<< 52 := rfl
  rw [isFinite, bne_iff_ne, ne_eq, ← UInt64.toNat_inj, hmasked, hmask, Nat.shiftLeft_eq,
    Nat.shiftLeft_eq, Nat.mul_left_inj (by positivity)]

theorem exponentField_negate (x : Binary64) : x.negate.exponentField = x.exponentField := by
  have hbits : x.negate.bits.toNat = x.bits.toNat ^^^ 2 ^ 63 := UInt64.toNat_xor _ _
  rw [exponentField, exponentField, hbits]
  -- The bits of the field are below that of the sign.
  refine Nat.eq_of_testBit_eq fun i => ?_
  simp only [Nat.testBit_mod_two_pow, ← Nat.shiftRight_eq_div_pow, Nat.testBit_shiftRight,
    Nat.testBit_xor]
  by_cases h : i < 11
  · have hne : 63 ≠ 52 + i := by omega
    rw [Nat.testBit_two_pow_of_ne hne, Bool.xor_false]
  · simp [h]

theorem isCanonical_of_isFinite (hx : x.isFinite) : x.IsCanonical := by
  intro negative h
  have hfield : BinaryFormat.double.topExponentField = 2047 := rfl
  have hne := isFinite_iff.mp hx
  unfold value BinaryFormat.decode at h
  dsimp only at h
  split_ifs at h with htop hfraction
  rw [hfield] at htop
  exact absurd htop hne

theorem isFinite_negate : x.negate.isFinite ↔ x.isFinite := by
  rw [isFinite_iff, isFinite_iff, exponentField_negate]

theorem isCanonical_signed (hx : x.isFinite) (negative : Bool) :
    (if negative then x.negate else x).IsCanonical := by
  split_ifs
  · exact isCanonical_of_isFinite (isFinite_negate.mpr hx)
  · exact isCanonical_of_isFinite hx

end VoltageStats.Binary64
