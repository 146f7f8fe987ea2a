import VoltageStats.Archive.Words
import VoltageStats.Proofs.Bytes
import VoltageStats.Proofs.Npy.File

/-!
# Words read back

The bytes of some words hold exactly these words (`wordsOf_wordBytes`).
-/

namespace VoltageStats

theorem ElementKind.readable_scalarType (kind : ElementKind) : kind.scalarType.Readable := by
  cases kind with
  | real => exact Npy.ScalarType.readable_float32
  | count => exact Npy.ScalarType.readable_count32

theorem toList_wordBytes (words : Array UInt32) :
    (wordBytes words).data.toList =
      words.toList.flatMap fun word => LittleEndian.encode 4 word.toNat := by
  -- The words are put after bytes that are there already, so the induction is over any such bytes.
  have hfold : ∀ (words : List UInt32) (bytes : ByteArray),
      (words.foldl LittleEndian.push32 bytes).data.toList =
        bytes.data.toList ++ words.flatMap fun word => LittleEndian.encode 4 word.toNat := by
    intro words
    induction words with
    | nil => simp
    | cons word words ih =>
        intro bytes
        rw [List.foldl_cons, ih, LittleEndian.toList_push32, List.flatMap_cons, List.append_assoc]
  rw [wordBytes, ← Array.foldl_toList, hfold]
  rfl

theorem size_wordBytes (words : Array UInt32) : (wordBytes words).size = words.size * 4 := by
  rw [ByteArray.size, ← Array.length_toList, toList_wordBytes]
  exact length_flatMap_const (fun _ => LittleEndian.length_encode 4 _) words.toList

/-- A word is read at the position of its four bytes. -/
theorem word32At_wordBytes (words : Array UInt32) {i : Nat} (hi : i < words.size) :
    LittleEndian.word32At (wordBytes words) (4 * i) = words[i].toNat := by
  have hlist : words.toList = words.toList.take i ++ words[i] :: words.toList.drop (i + 1) := by
    rw [← Array.getElem_toList, ← List.drop_eq_getElem_cons, List.take_append_drop]
  have hbytes : wordBytes words =
      ⟨((words.toList.take i).flatMap (fun word => LittleEndian.encode 4 word.toNat) ++
        (LittleEndian.encode 4 words[i].toNat ++
          (words.toList.drop (i + 1)).flatMap fun word =>
            LittleEndian.encode 4 word.toNat)).toArray⟩ := by
    apply ByteArray.ext
    apply Array.toList_inj.mp
    refine (toList_wordBytes words).trans ((congrArg _ hlist).trans ?_)
    rw [List.flatMap_append, List.flatMap_cons]
  rw [hbytes]
  apply LittleEndian.word32At_eq words[i].toNat_lt
  rw [length_flatMap_const fun _ => LittleEndian.length_encode 4 _, List.length_take,
    Array.length_toList]
  omega

theorem wordsOf_wordBytes (words : Array UInt32) : wordsOf (wordBytes words) = words := by
  apply Array.ext
  · rw [wordsOf, Array.size_ofFn, size_wordBytes, Nat.mul_div_cancel _ (by decide)]
  · intro i _ hi
    simp only [wordsOf, Array.getElem_ofFn, word32At_wordBytes words hi, UInt32.ofNat_toNat]

end VoltageStats
