import VoltageStats.Proofs.FileTree.Traffic
import VoltageStats.Proofs.Generator.Arrays

/-!
# Generated statistics are consistent

The header of generated statistics is made from the same configuration as their arrays. So its
vectors have the lengths that its counts say (`validate_headerFor`), every array has the shape
that the header says (`Takes.validate_data`), and the statistics can be written without either being
found wrong (`generated_consistent`).
-/

namespace VoltageStats

theorem size_binCentres {R : Type} [Arithmetic R] (start width : R) (count : Nat) :
    (binCentres start width count).size = count := by
  rw [binCentres, Array.size_ofFn]

namespace Config

variable {c : Config} {raw : Tensor Int} {g : Generated}

/-! ## The header -/

/-- Generated statistics come with the labels of the configuration. -/
theorem labels_of_generate (hg : c.generate raw = some g) :
    g.channelFreqMhz = c.channelLabels Binary64 ∧ g.frequencyBins = c.frequencyLabels Binary64 ∧
      g.timeseriesBins = c.timeLabels Binary64 := by
  obtain ⟨arrays, -, rfl⟩ := Option.map_eq_some_iff.mp hg
  exact ⟨rfl, rfl, rfl⟩

theorem size_labels_of_generate (hg : c.generate raw = some g) :
    g.channelFreqMhz.size = c.nchan ∧ g.frequencyBins.size = c.nfreqBins.toNat ∧
      g.timeseriesBins.size = c.ntimeBins.toNat := by
  obtain ⟨hchannels, hfrequency, htime⟩ := labels_of_generate hg
  refine ⟨?_, ?_, ?_⟩
  · rw [hchannels, channelLabels, size_binCentres]
  · rw [hfrequency, frequencyLabels, size_binCentres]
  · rw [htime, timeLabels, size_binCentres]

/-- The header is consistent exactly if the labels have the lengths that its counts say. -/
theorem consistent_headerFor_iff (ids : ScanIdentifiers) :
    (c.headerFor ids g).Consistent ↔ g.channelFreqMhz.size = c.nchan ∧
      g.frequencyBins.size = c.nfreqBins.toNat ∧ g.timeseriesBins.size = c.ntimeBins.toNat := by
  constructor
  · intro h
    exact ⟨h.size_channelFreqMhz.symm, h.size_frequencyBins.symm, h.size_timeseriesBins.symm⟩
  · intro h
    obtain ⟨hchannels, hfrequency, htime⟩ := h
    exact
      { npol_eq := c.toNat_npol
        ndim_eq := c.toNat_ndim
        endChan_isSome := isSome_checkedEndChan.mpr c.accepted.endChan_lt
        size_channelFreqMhz := hchannels.symm
        size_frequencyBins := hfrequency.symm
        size_timeseriesBins := htime.symm
        size_numSamplesSpectrum := Array.size_replicate.symm }

/-- The vectors of the header have the lengths that its counts say. -/
theorem validate_headerFor (hg : c.generate raw = some g) (ids : ScanIdentifiers) :
    (c.headerFor ids g).validate = .ok () :=
  Metadata.validate_eq_ok_iff.mpr ((consistent_headerFor_iff ids).mpr (size_labels_of_generate hg))

/-- No count of samples in the header is cut. -/
theorem Takes.toNat_numSamples (h : c.Takes raw) (ids : ScanIdentifiers) (g : Generated) :
    (c.headerFor ids g).numSamples.toNat = c.nchan * c.samplesPerChannel ∧
      (c.headerFor ids g).numSamplesRfiExcised.toNat =
        c.nonRfiChannels.length * c.samplesPerChannel := by
  have hsamples : (UInt32.ofNat c.samplesPerChannel).toNat = c.samplesPerChannel :=
    UInt32.toNat_ofNat_of_lt' h.samplesPerChannel_lt
  have hkept := h.length_mul_lt c.length_nonRfiChannels_le
  constructor
  · show (c.settings.nchan * UInt32.ofNat c.samplesPerChannel).toNat = _
    rw [UInt32.toNat_mul, hsamples]
    exact Nat.mod_eq_of_lt h.nchan_mul_lt
  · show (UInt32.ofNat c.nonRfiChannels.length * UInt32.ofNat c.samplesPerChannel).toNat = _
    rw [UInt32.toNat_mul, hsamples, c.toNat_length_nonRfiChannels]
    exact Nat.mod_eq_of_lt hkept

/-! ## The arrays -/

/-- The header says the shapes that the arrays of the configuration have. -/
theorem expectedShape_headerFor (c : Config) (ids : ScanIdentifiers) (g : Generated)
    (key : DataKey) : (c.headerFor ids g).expectedShape key =
      polarisationCount :: c.rowShape c.nchan key := by
  have hnbin := c.toNat_nbin
  have hnpol := c.toNat_npol
  have hndim := c.toNat_ndim
  cases key <;>
    simp only [Metadata.expectedShape, headerFor, rowShape, hnpol, hndim, hnbin] <;> rfl

/-- Every array has the shape that the header says. -/
theorem Takes.validate_data (h : c.Takes raw) (hg : c.generate raw = some g)
    (ids : ScanIdentifiers) : g.data.validate (c.headerFor ids g) = .ok () := by
  obtain ⟨g', hg', hdata⟩ := h.generate_eq
  obtain rfl := Option.some.inj (hg.symm.trans hg')
  refine StatArrays.validate_eq_ok_iff.mpr fun key => ?_
  rw [hdata, StatArrays.shapeOf_map, shapeOf_arraysOf, expectedShape_headerFor]

/-! ## Generated statistics -/

/-- Samples that a configuration is meant for are reduced without any step going wrong. What is
generated from them passes every check with its header, whose counts of samples are not cut, and so
writing it never ends because the two do not fit together, whatever else goes on or fails. -/
theorem generated_consistent (h : c.Takes raw) (ids : ScanIdentifiers) :
    ∃ arrays g, c.reduceChecked Binary64 raw = .ok arrays ∧ c.reduce Binary64 raw = some arrays ∧
      c.generate raw = some g ∧ g.data = arrays.map Binary64.toBinary32 UInt32.ofNat ∧
      (c.headerFor ids g).validate = .ok () ∧ g.data.validate (c.headerFor ids g) = .ok () ∧
      Statistics.ofParts (c.headerFor ids g) g.data = .ok (c.statisticsOf ids g) ∧
      (c.headerFor ids g).numSamples.toNat = c.nchan * c.samplesPerChannel ∧
      (c.headerFor ids g).numSamplesRfiExcised.toNat =
        c.nonRfiChannels.length * c.samplesPerChannel ∧
      (∀ (tree : FileTree) (path : String) (error : StatsError),
        (tree.write path (c.headerFor ids g) g.data).2 ≠ .error (.inconsistent error)) ∧
      ∀ {ι κ : Type} [DecidableEq ι] [DecidableEq κ] (t : Traffic ι) (i : ι) (tree : FileTree)
        (actions : List (Traffic.Action ι κ)) (error : StatsError),
        t.metadata i = c.headerFor ids g → t.data i = g.data →
          (t.after tree actions).phase i ≠ .ended (.error (.inconsistent error)) := by
  obtain ⟨g, hg, hdata⟩ := h.generate_eq
  have hheader := validate_headerFor hg ids
  have hshapes := h.validate_data hg ids
  obtain ⟨hall, hkept⟩ := h.toNat_numSamples ids g
  have hparts := Statistics.ofParts_eq_ok_iff.mpr ⟨hheader, hshapes, rfl⟩
  refine ⟨_, g, h.reduceChecked_eq, h.reduce_eq, hg, hdata, hheader, hshapes, hparts, hall, hkept,
    ?_, ?_⟩
  · intro tree path error
    let w : Writing := ⟨path, c.headerFor ids g, g.data, tree.unusedName⟩
    have hsound : w.Sound tree .unchecked := trivial
    exact Writing.run_ne_inconsistent ⟨hheader, hshapes⟩ hsound Writing.stepCount error
  · intro ι κ _ _ t i tree actions error hmetadata hdata
    refine Traffic.phase_ne_inconsistent ?_ actions error
    show (t.metadata i).validate = .ok () ∧ (t.data i).validate (t.metadata i) = .ok ()
    rw [hmetadata, hdata]
    exact ⟨hheader, hshapes⟩

/-- Three channels of two samples are reduced, and their header counts six samples. -/
theorem generated_threeChannels :
    threeChannels.Takes threeChannelSamples ∧
      ∃ arrays g, threeChannels.reduceChecked Binary64 threeChannelSamples = .ok arrays ∧
        threeChannels.generate threeChannelSamples = some g ∧
        (threeChannels.headerFor .default g).validate = .ok () ∧
        g.data.validate (threeChannels.headerFor .default g) = .ok () ∧
        (threeChannels.headerFor .default g).numSamples.toNat = 6 := by
  obtain ⟨arrays, g, hchecked, -, hg, -, hheader, hshapes, -, hall, -⟩ :=
    generated_consistent takes_threeChannels .default
  exact ⟨takes_threeChannels, arrays, g, hchecked, hg, hheader, hshapes, hall⟩

end Config

end VoltageStats
