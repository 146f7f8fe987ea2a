import Mathlib
import VoltageStats.Binary.Format
import VoltageStats.Bytes.LittleEndian

/-!
# Bytes read back

A little-endian number that fits its width has exactly one form (`decode?_eq_some_iff`), whatever
follows it, and it is read at a position of an array of bytes if its form stands there
(`word16At_eq`, `word32At_eq`). A text has exactly one form in UTF-8 (`fromUTF8?_eq_some_iff`).
-/

namespace VoltageStats

/-- Bytes are the UTF-8 of a text exactly when they are what the text is written as. -/
theorem fromUTF8?_eq_some_iff {bytes : ByteArray} {s : String} :
    String.fromUTF8? bytes = some s ↔ bytes = s.toByteArray := by
  rw [String.fromUTF8?]
  constructor
  · intro h
    split at h
    · rw [← Option.some.inj h]
      rfl
    · cases h
  · rintro rfl
    rw [dif_pos s.isValidUTF8]
    rfl

theorem length_toByteArray (s : String) : s.toByteArray.data.toList.length = s.utf8ByteSize := by
  rw [Array.length_toList, ← ByteArray.size, String.size_toByteArray]

/-- Pieces of one length, one after the other. -/
theorem length_flatMap_const {α β : Type} {piece : α → List β} {width : Nat}
    (hpiece : ∀ x, (piece x).length = width) (xs : List α) :
    (xs.flatMap piece).length = xs.length * width := by
  simp [List.length_flatMap, hpiece, List.map_const']

/-- The bytes between two positions, if those of a list stand there. -/
theorem extract_toArray {front middle rest : List UInt8} {start stop : Nat}
    (hstart : front.length = start) (hstop : front.length + middle.length = stop) :
    (⟨(front ++ (middle ++ rest)).toArray⟩ : ByteArray).extract start stop = ⟨middle.toArray⟩ := by
  subst hstart hstop
  apply ByteArray.ext
  rw [ByteArray.data_extract, List.extract_toArray, List.extract_eq_take_drop, List.drop_left,
    Nat.add_sub_cancel_left, List.take_left]

namespace LittleEndian

@[simp] theorem length_encode (width n : Nat) : (encode width n).length = width := by
  induction width generalizing n with
  | zero => rfl
  | succ width ih => simp [encode, ih]

/-- The first byte and the rest are the remainder and the quotient of the number. -/
theorem encode_succ_byte (width m : Nat) (b : UInt8) :
    encode (width + 1) (b.toNat + 256 * m) = b :: encode width m := by
  have hb := b.toNat_lt
  have hlow : UInt8.ofNat (b.toNat + 256 * m) = b := by
    apply UInt8.toNat_inj.mp
    rw [UInt8.toNat_ofNat']
    omega
  have hhigh : (b.toNat + 256 * m) / 256 = m := by omega
  rw [encode, hlow, hhigh]

/-- A number is read off some bytes exactly when it fits and they start with its bytes. -/
theorem decode?_eq_some_iff {width : Nat} {bytes rest : List UInt8} {n : Nat} :
    decode? width bytes = some (n, rest) ↔ n < 256 ^ width ∧ encode width n ++ rest = bytes := by
  -- The number shrinks with the bytes that are left: what is read of the rest is the quotient.
  induction width generalizing bytes n with
  | zero =>
      simp only [decode?, encode, Option.some.injEq, Prod.mk.injEq, Nat.pow_zero, Nat.lt_one_iff,
        List.nil_append]
      exact and_congr eq_comm eq_comm
  | succ width ih =>
      cases bytes with
      | nil => simp [decode?, encode]
      | cons b bytes =>
          simp only [decode?, Option.map_eq_some_iff, Prod.exists, Prod.mk.injEq]
          constructor
          · rintro ⟨m, rest, hm, rfl, rfl⟩
            obtain ⟨hlt, rfl⟩ := ih.mp hm
            refine ⟨?_, by rw [encode_succ_byte]; rfl⟩
            have := b.toNat_lt
            rw [Nat.pow_succ]
            omega
          · rintro ⟨hlt, h⟩
            obtain ⟨rfl, htail⟩ := List.cons.inj h
            refine ⟨n / 256, rest, ih.mpr ⟨?_, htail⟩, ?_, rfl⟩
            · rw [Nat.pow_succ] at hlt
              omega
            · rw [UInt8.toNat_ofNat']
              omega

theorem byteAt_toArray (bytes : List UInt8) (position : Nat) :
    byteAt ⟨bytes.toArray⟩ position = bytes[position]?.getD 0 := by
  unfold byteAt
  have hsize : (⟨bytes.toArray⟩ : ByteArray).size = bytes.length := rfl
  by_cases h : position < bytes.length
  · rw [dif_pos (by rwa [hsize]), List.getElem?_eq_getElem h]
    rfl
  · rw [dif_neg (by rwa [hsize]), List.getElem?_eq_none (Nat.le_of_not_lt h)]
    rfl

/-- The byte at an offset into what follows some other bytes. -/
theorem byteAt_append (front bytes : List UInt8) (offset : Nat) :
    byteAt ⟨(front ++ bytes).toArray⟩ (front.length + offset) = bytes[offset]?.getD 0 := by
  rw [byteAt_toArray, List.getElem?_append_right (Nat.le_add_right _ _), Nat.add_sub_cancel_left]

/-- A number of two bytes is read where its bytes stand. -/
theorem word16At_eq {front rest : List UInt8} {n position : Nat} (hn : n < 2 ^ 16)
    (hposition : front.length = position) :
    word16At ⟨(front ++ (encode 2 n ++ rest)).toArray⟩ position = n := by
  subst hposition
  have hlow := byteAt_append front (encode 2 n ++ rest) 0
  have hhigh := byteAt_append front (encode 2 n ++ rest) 1
  rw [Nat.add_zero] at hlow
  rw [word16At, hlow, hhigh]
  simp only [encode, List.cons_append, List.nil_append, List.getElem?_cons_zero,
    List.getElem?_cons_succ, Option.getD_some, UInt8.toNat_ofNat']
  omega

/-- A number of four bytes is read where its bytes stand. -/
theorem word32At_eq {front rest : List UInt8} {n position : Nat} (hn : n < 2 ^ 32)
    (hposition : front.length = position) :
    word32At ⟨(front ++ (encode 4 n ++ rest)).toArray⟩ position = n := by
  -- Four bytes are read as two numbers of two bytes, the low one first.
  have hsplit : encode 4 n = encode 2 (n % 2 ^ 16) ++ encode 2 (n / 2 ^ 16) := by
    simp only [encode, List.cons_append, List.nil_append, List.cons.injEq, and_true,
      ← UInt8.toNat_inj, UInt8.toNat_ofNat']
    omega
  have hlow : word16At ⟨(front ++ (encode 2 (n % 2 ^ 16) ++
      (encode 2 (n / 2 ^ 16) ++ rest))).toArray⟩ position = n % 2 ^ 16 :=
    word16At_eq (Nat.mod_lt n (by decide)) hposition
  have hhigh : word16At ⟨(front ++ encode 2 (n % 2 ^ 16) ++
      (encode 2 (n / 2 ^ 16) ++ rest)).toArray⟩ (position + 2) = n / 2 ^ 16 :=
    word16At_eq (by omega) (by simp [hposition])
  rw [List.append_assoc] at hhigh
  rw [hsplit, List.append_assoc, word32At, hlow, hhigh]
  omega

/-- A word is put after some bytes as its four bytes. -/
theorem toList_push32 (bytes : ByteArray) (word : UInt32) :
    (push32 bytes word).data.toList = bytes.data.toList ++ encode 4 word.toNat := by
  simp only [push32, encode, ByteArray.data_push, Array.toList_push, List.append_assoc,
    List.cons_append, List.nil_append, List.append_cancel_left_eq, List.cons.injEq, and_true,
    ← UInt8.toNat_inj, UInt8.toNat_ofNat', UInt32.toNat_toUInt8, UInt32.toNat_shiftRight,
    Nat.shiftRight_eq_div_pow, UInt32.reduceToNat, Nat.reduceMod, Nat.reducePow, true_and]
  omega

end LittleEndian

end VoltageStats
