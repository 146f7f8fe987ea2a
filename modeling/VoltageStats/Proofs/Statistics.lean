import VoltageStats.Statistics
import VoltageStats.Proofs.Checked

/-!
# Consistent statistics

What it means that a header and its arrays pass every check: `Metadata.validate_eq_ok_iff` for
the header by itself, `StatArrays.validate_eq_ok_iff` for the shapes of the arrays. None of it
depends on the format version that the header names.
-/

namespace VoltageStats

namespace Metadata

/-- What is checked of a header: the fixed counts, the last channel number and the lengths of the
vectors. -/
structure Consistent (m : Metadata) : Prop where
  npol_eq : m.npol.toNat = polarisationCount
  ndim_eq : m.ndim.toNat = componentCount
  endChan_isSome : (checkedEndChan m.startChan m.nchan).isSome
  size_channelFreqMhz : m.nchan.toNat = m.channelFreqMhz.size
  size_frequencyBins : m.nchanDs.toNat = m.frequencyBins.size
  size_timeseriesBins : m.ndatDs.toNat = m.timeseriesBins.size
  size_numSamplesSpectrum : m.nchan.toNat = m.numSamplesSpectrum.size

theorem validate_eq_ok_iff {m : Metadata} : m.validate = .ok () ↔ m.Consistent := by
  have hlengths : (m.vectorLengths.find? fun length => length.2.1 ≠ length.2.2) = none ↔
      m.nchan.toNat = m.channelFreqMhz.size ∧ m.nchanDs.toNat = m.frequencyBins.size ∧
      m.ndatDs.toNat = m.timeseriesBins.size ∧ m.nchan.toNat = m.numSamplesSpectrum.size := by
    simp [vectorLengths]
  simp only [validate, except_refuse_eq_ok_iff, Decidable.not_not, Bool.not_eq_true,
    Option.isNone_eq_false_iff]
  cases hfound : m.vectorLengths.find? fun length => length.2.1 ≠ length.2.2 with
  | none =>
      obtain ⟨hchannels, hfrequency, htime, hcounts⟩ := hlengths.mp hfound
      constructor
      · rintro ⟨hnpol, hndim, hend, -⟩
        exact ⟨hnpol, hndim, hend, hchannels, hfrequency, htime, hcounts⟩
      · intro h
        exact ⟨h.npol_eq, h.ndim_eq, h.endChan_isSome, rfl⟩
  | some length =>
      constructor
      · rintro ⟨-, -, -, h⟩
        cases h
      · intro h
        have hnone := hlengths.mpr ⟨h.size_channelFreqMhz, h.size_frequencyBins,
          h.size_timeseriesBins, h.size_numSamplesSpectrum⟩
        rw [hnone] at hfound
        cases hfound

/-- Channels without a frequency each are reported before the counts are looked at. -/
theorem validate_withCounts {m : Metadata} (h : m.nchan.toNat ≠ m.channelFreqMhz.size)
    (counts : Array UInt32) : { m with numSamplesSpectrum := counts }.validate = m.validate := by
  have hfound : ∀ m : Metadata, m.nchan.toNat ≠ m.channelFreqMhz.size →
      (m.vectorLengths.find? fun length => length.2.1 ≠ length.2.2) =
        some (.chanFreq, m.nchan.toNat, m.channelFreqMhz.size) := by
    intro m h
    exact List.find?_cons_of_pos (decide_eq_true h)
  simp only [validate, hfound m h, hfound { m with numSamplesSpectrum := counts } h]

/-- The header with another format version. -/
def withVersion (m : Metadata) (version : String) : Metadata :=
  { m with fileFormatVersion := version }

theorem Consistent.withVersion {m : Metadata} (h : m.Consistent) (version : String) :
    (m.withVersion version).Consistent :=
  ⟨h.npol_eq, h.ndim_eq, h.endChan_isSome, h.size_channelFreqMhz, h.size_frequencyBins,
    h.size_timeseriesBins, h.size_numSamplesSpectrum⟩

/-- The axes of an array are few, and their lengths are words. -/
theorem expectedShape_bound (m : Metadata) (key : DataKey) :
    (m.expectedShape key).length ≤ 3 ∧ ∀ n ∈ m.expectedShape key, n < 2 ^ 32 := by
  have := m.npol.toNat_lt
  have := m.ndim.toNat_lt
  have := m.nchan.toNat_lt
  have := m.nchanDs.toNat_lt
  have := m.ndatDs.toNat_lt
  have := m.histogramNbin.toNat_lt
  have := m.nrebin.toNat_lt
  cases key <;> simp_all [expectedShape, seriesStatisticCount]

end Metadata

namespace StatArrays

variable {R C R' C' : Type}

theorem get_map (f : R → R') (g : C → C') (d : StatArrays R C) (key : DataKey) :
    (d.map f g).get key = mapElements f g key.kind (d.get key) := by
  rw [map, get_ofFn]

theorem shape_mapElements (f : R → R') (g : C → C') (kind : ElementKind)
    (t : Tensor (kind.Element R C)) : (mapElements f g kind t).shape = t.shape := by
  cases kind <;> rfl

/-- Changing every element leaves the shapes as they are. -/
theorem shapeOf_map (f : R → R') (g : C → C') (d : StatArrays R C) (key : DataKey) :
    (d.map f g).shapeOf key = d.shapeOf key := by
  rw [shapeOf, get_map, shape_mapElements, shapeOf]

theorem validate_eq_ok_iff {d : StatArrays R C} {m : Metadata} :
    d.validate m = .ok () ↔ ∀ key, d.shapeOf key = m.expectedShape key := by
  have hall : (DataKey.all.find? fun key => d.shapeOf key ≠ m.expectedShape key) = none ↔
      ∀ key, d.shapeOf key = m.expectedShape key := by
    simp only [List.find?_eq_none, decide_eq_true_eq, Decidable.not_not]
    exact ⟨fun h key => h key key.mem_all, fun h key _ => h key⟩
  rw [validate, ← hall]
  cases DataKey.all.find? fun key => d.shapeOf key ≠ m.expectedShape key <;> simp

/-- All arrays are found exactly when each of them is. -/
theorem ofFnM_eq_ok_iff {ε : Type}
    {array : (key : DataKey) → Except ε (Tensor (key.kind.Element R C))} {d : StatArrays R C} :
    ofFnM array = .ok d ↔ ∀ key, array key = .ok (d.get key) := by
  constructor
  · intro h
    simp only [ofFnM, except_bind_eq_ok_iff, except_pure_eq_ok_iff] at h
    obtain ⟨_, h0, _, h1, _, h2, _, h3, _, h4, _, h5, _, h6, _, h7, _, h8, _, h9, _, h10, _, h11,
      _, h12, _, h13, _, h14, _, h15, _, h16, _, h17, _, h18, _, h19, rfl⟩ := h
    intro key
    cases key <;> assumption
  · intro h
    simp only [ofFnM, h]
    rfl

end StatArrays

theorem Statistics.ofParts_eq_ok_iff {m : Metadata} {d : Data} {s : Statistics} :
    ofParts m d = .ok s ↔ m.validate = .ok () ∧ d.validate m = .ok () ∧ s = ⟨m, d⟩ := by
  simp only [ofParts, except_bind_eq_ok_iff, except_pure_eq_ok_iff]
  constructor
  · rintro ⟨⟨⟩, hm, ⟨⟩, hd, rfl⟩
    exact ⟨hm, hd, rfl⟩
  · rintro ⟨hm, hd, rfl⟩
    exact ⟨(), hm, (), hd, rfl⟩

end VoltageStats
