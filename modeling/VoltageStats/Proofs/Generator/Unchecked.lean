import VoltageStats.Proofs.FileTree.Reading
import VoltageStats.Proofs.Generator.Consistent
import VoltageStats.Proofs.Views.Enumeration

/-!
# Statistics that are not checked

Statistics that have been checked, and those that have been read, are consistent, and so each view
of them has a value. Generated statistics are put together with their header without a check in a
release build. They are consistent exactly if labels and arrays fit the configuration
(`Config.consistent_statisticsOf_iff`): nothing keeps others from being put together, not even those
that the configuration itself yields for samples of more channels than it has
(`Config.consistent_iff_fits`). A build with assertions stops at those
(`Config.statisticsChecked_eq_ok_iff`).
-/

namespace VoltageStats

namespace Statistics

variable {s : Statistics}

/-- Each view has a value, whatever is selected. -/
structure HasViews (s : Statistics) : Prop where
  frequencyAveraged : ∀ sel, (s.frequencyAveraged sel).isSome
  channelStats : ∀ sel, (s.channelStats sel).isSome
  spectralPower : ∀ sel, (s.spectralPower sel).isSome
  histogram : ∀ sel, (s.histogram sel).isSome
  rebinnedHistogram : ∀ sel, (s.rebinnedHistogram sel).isSome
  jointHistogram : ∀ sel, (s.jointHistogram sel).isSome
  spectrogram : ∀ sel, (s.spectrogram sel).isSome
  timeseries : ∀ sel, (s.timeseries sel).isSome

/-- A view that lists its places has a value. -/
theorem isSome_of_enumerates {Tuple Row : Type} {view : Selection → Option (List Row)}
    {tuples : List Tuple} {Shows : Tuple → Row → Prop} {admits : Selection → Row → Bool}
    (h : Enumerates view tuples Shows admits) (sel : Selection) : (view sel).isSome := by
  obtain ⟨rows, -, -, hselected⟩ := h
  rw [hselected sel, Option.isSome_some]

theorem Consistent.hasViews (h : s.Consistent) : s.HasViews where
  frequencyAveraged := isSome_of_enumerates (enumerates_frequencyAveraged h)
  channelStats := isSome_of_enumerates (enumerates_channelStats h)
  spectralPower := isSome_of_enumerates (enumerates_spectralPower h)
  histogram := isSome_of_enumerates (enumerates_histogram h)
  rebinnedHistogram := isSome_of_enumerates (enumerates_rebinnedHistogram h)
  jointHistogram := isSome_of_enumerates (enumerates_jointHistogram h)
  spectrogram := isSome_of_enumerates (enumerates_spectrogram h)
  timeseries := isSome_of_enumerates (enumerates_timeseries h)

theorem consistent_iff_validate : s.Consistent ↔
    s.metadata.validate = .ok () ∧ s.data.validate s.metadata = .ok () := by
  rw [Metadata.validate_eq_ok_iff, StatArrays.validate_eq_ok_iff]
  exact ⟨fun h => ⟨h.header, h.shapes⟩, fun h => ⟨h.1, h.2⟩⟩

/-- What is read is consistent. -/
theorem consistent_of_read {tree : FileTree} {path : String} (h : tree.read path = .ok s) :
    s.Consistent := by
  unfold FileTree.read readOpened at h
  split at h
  next => cases h
  next => cases h
  next contents =>
    rw [except_mapError_eq_ok_iff, Contents.load, except_bind_eq_ok_iff] at h
    obtain ⟨archive, -, hload⟩ := h
    unfold Archive.load at hload
    simp only [except_bind_eq_ok_iff, except_mapError_eq_ok_iff] at hload
    obtain ⟨_, -, m, -, d, -, hparts⟩ := hload
    exact consistent_of_ofParts hparts

/-- Every selection has a polarisation and a component. -/
theorem exists_mem_components (sel : Selection) : ∃ place, place ∈ sel.components := by
  rw [Selection.components]
  cases hpol : sel.pol <;> cases hdim : sel.dim <;>
    simp [Selection.pols, Selection.dims, hpol, hdim, Polarisation.all, Component.all]

/-- There are no rows of channels if a channel has no label. -/
theorem channelStats_eq_none
    (h : s.metadata.channelFreqMhz.size < s.metadata.nchan.toNat) (sel : Selection) :
    s.channelStats sel = none := by
  obtain ⟨place, hplace⟩ := exists_mem_components sel
  have hchannel : (s.metadata.channelFreqMhz.size,
      s.metadata.startChan + UInt32.ofNat s.metadata.channelFreqMhz.size) ∈ s.channels :=
    List.mem_map_of_mem (List.mem_range.mpr h)
  -- The first channel without a label has no row, and so no place has a block of rows.
  rw [channelStats, option_mapM_eq_none_iff.mpr
    ⟨place, hplace, option_mapM_eq_none_iff.mpr ⟨_, hchannel, by simp⟩⟩]
  rfl

end Statistics

/-- Labels and arrays of the lengths that a configuration has. -/
structure Generated.Fits (g : Generated) (c : Config) : Prop where
  channelFreqMhz : g.channelFreqMhz.size = c.nchan
  frequencyBins : g.frequencyBins.size = c.nfreqBins.toNat
  timeseriesBins : g.timeseriesBins.size = c.ntimeBins.toNat
  shapes : ∀ key, g.data.shapeOf key = polarisationCount :: c.rowShape c.nchan key

namespace Config

variable {c : Config} {g : Generated} {raw : Tensor Int}

/-- Generated statistics are consistent with their header exactly if they fit. -/
theorem consistent_statisticsOf_iff (ids : ScanIdentifiers) :
    (c.statisticsOf ids g).Consistent ↔ g.Fits c := by
  have hshapes : (∀ key, g.data.shapeOf key = (c.headerFor ids g).expectedShape key) ↔
      ∀ key, g.data.shapeOf key = polarisationCount :: c.rowShape c.nchan key := by
    simp only [expectedShape_headerFor]
  constructor
  · intro h
    obtain ⟨hchannels, hfrequency, htime⟩ := (consistent_headerFor_iff ids).mp h.header
    exact ⟨hchannels, hfrequency, htime, hshapes.mp h.shapes⟩
  · intro h
    exact ⟨(consistent_headerFor_iff ids).mpr
      ⟨h.channelFreqMhz, h.frequencyBins, h.timeseriesBins⟩, hshapes.mpr h.shapes⟩

/-- The counts of samples fit their words if that of all channels does. -/
theorem headerChecked_eq_ok_iff (ids : ScanIdentifiers) {m : Metadata} :
    c.headerChecked ids g = .ok m ↔
      c.nchan * (UInt32.ofNat c.samplesPerChannel).toNat < 2 ^ 32 ∧ c.headerFor ids g = m := by
  have hkept : c.nonRfiChannels.length * (UInt32.ofNat c.samplesPerChannel).toNat ≤
      c.nchan * (UInt32.ofNat c.samplesPerChannel).toNat :=
    Nat.mul_le_mul_right _ c.length_nonRfiChannels_le
  simp only [headerChecked, except_bind_eq_ok_iff, except_pure_eq_ok_iff, Checked.word_eq_ok_iff]
  constructor
  · intro h
    obtain ⟨_, ⟨hall, -⟩, -, -, hm⟩ := h
    exact ⟨hall, hm⟩
  · intro h
    obtain ⟨hall, hm⟩ := h
    exact ⟨_, ⟨hall, rfl⟩, _, ⟨by omega, rfl⟩, hm⟩

/-- With assertions, statistics come of what fits, and they are those that come of it without. -/
theorem statisticsChecked_eq_ok_iff (ids : ScanIdentifiers) {s : Statistics} :
    c.statisticsChecked ids g = .ok s ↔
      c.nchan * (UInt32.ofNat c.samplesPerChannel).toNat < 2 ^ 32 ∧ g.Fits c ∧
        c.statisticsOf ids g = s := by
  rw [← consistent_statisticsOf_iff ids, Statistics.consistent_iff_validate]
  simp only [statisticsChecked, except_bind_eq_ok_iff, except_pure_eq_ok_iff,
    headerChecked_eq_ok_iff, Checked.passed_eq_ok_iff]
  constructor
  · intro h
    obtain ⟨_, ⟨hcounts, rfl⟩, _, hheader, _, hdata, hs⟩ := h
    exact ⟨hcounts, ⟨hheader, hdata⟩, hs⟩
  · intro h
    obtain ⟨hcounts, ⟨hheader, hdata⟩, hs⟩ := h
    exact ⟨_, ⟨hcounts, rfl⟩, (), hheader, (), hdata, hs⟩

/-- What is generated from samples has the labels of the configuration, and the shapes that go with
the channels of the samples. -/
theorem exists_of_generate (hg : c.generate raw = some g) :
    ∃ channels samples, raw.shape = [polarisationCount, componentCount, channels, samples] ∧
      ∀ key, g.data.shapeOf key = polarisationCount :: c.rowShape channels key := by
  obtain ⟨arrays, harrays, rfl⟩ := Option.map_eq_some_iff.mp hg
  obtain ⟨channels, samples, hadmitted, rfl⟩ := exists_of_reduce harrays
  refine ⟨channels, samples, hadmitted.shape_eq, fun key => ?_⟩
  rw [StatArrays.shapeOf_map, shapeOf_arraysOf]

/-- What is generated fits exactly if the samples have as many channels as the configuration. -/
theorem fits_iff_of_generate (hg : c.generate raw = some g) : g.Fits c ↔
    ∃ samples, raw.shape = [polarisationCount, componentCount, c.nchan, samples] := by
  obtain ⟨channels, samples, hshape, hshapes⟩ := exists_of_generate hg
  constructor
  · intro h
    have hpower := (hshapes .meanSpectralPower).symm.trans (h.shapes .meanSpectralPower)
    obtain rfl : channels = c.nchan := by simpa [rowShape] using hpower
    exact ⟨samples, hshape⟩
  · intro h
    obtain ⟨samples', hshape'⟩ := h
    obtain rfl : channels = c.nchan := by
      rw [hshape] at hshape'
      simpa using (List.cons.inj (List.cons.inj (List.cons.inj hshape').2).2).1
    obtain ⟨hchannels, hfrequency, htime⟩ := size_labels_of_generate hg
    exact ⟨hchannels, hfrequency, htime, hshapes⟩

/-- Statistics that were checked or read pass every check, and each view of them has a value.
Generated statistics are not checked: they pass exactly if their labels and arrays fit the
configuration. Those that are generated from samples do if the samples have no more channels than
the configuration. With fewer labels than channels there are no rows of channels. With assertions
there are statistics exactly where they pass and the counts of samples fit their words. -/
theorem consistent_iff_fits (c : Config) (ids : ScanIdentifiers) (g : Generated) :
    (((c.statisticsOf ids g).metadata.validate = .ok () ∧
        (c.statisticsOf ids g).data.validate (c.statisticsOf ids g).metadata = .ok ()) ↔
      g.Fits c) ∧
    (g.Fits c → (c.statisticsOf ids g).HasViews) ∧
    (∀ raw, c.generate raw = some g → (g.Fits c ↔
      ∃ samples, raw.shape = [polarisationCount, componentCount, c.nchan, samples])) ∧
    (g.channelFreqMhz.size < c.nchan → ∀ sel, (c.statisticsOf ids g).channelStats sel = none) ∧
    (∀ s, c.statisticsChecked ids g = .ok s ↔
      c.nchan * (UInt32.ofNat c.samplesPerChannel).toNat < 2 ^ 32 ∧ g.Fits c ∧
        c.statisticsOf ids g = s) ∧
    (∀ (m : Metadata) (d : Data) (s : Statistics), Statistics.ofParts m d = .ok s →
      s.metadata.validate = .ok () ∧ s.data.validate s.metadata = .ok () ∧ s.HasViews) ∧
    ∀ (tree : FileTree) (path : String) (s : Statistics), tree.read path = .ok s →
      s.metadata.validate = .ok () ∧ s.data.validate s.metadata = .ok () ∧ s.HasViews := by
  have hpasses : ∀ s : Statistics, s.Consistent →
      s.metadata.validate = .ok () ∧ s.data.validate s.metadata = .ok () ∧ s.HasViews := by
    intro s hs
    obtain ⟨hheader, hshapes⟩ := Statistics.consistent_iff_validate.mp hs
    exact ⟨hheader, hshapes, hs.hasViews⟩
  refine ⟨?_, ?_, fun raw hg => fits_iff_of_generate hg, ?_,
    fun s => statisticsChecked_eq_ok_iff ids, ?_, ?_⟩
  · rw [← Statistics.consistent_iff_validate, consistent_statisticsOf_iff]
  · intro hfits
    exact ((consistent_statisticsOf_iff ids).mpr hfits).hasViews
  · intro hfew
    exact Statistics.channelStats_eq_none hfew
  · intro m d s hparts
    exact hpasses s (Statistics.consistent_of_ofParts hparts)
  · intro tree path s hread
    exact hpasses s (Statistics.consistent_of_read hread)

/-- Samples of four channels. -/
def fourChannelSamples : Tensor Int :=
  .ofFn [polarisationCount, componentCount, 4, 2] fun _ => 1

/-- The configuration of three channels takes samples of four, and what it generates from them does
not pass the check of the arrays, at which a build with assertions stops. Without labels it does not
pass that of the header either, and there are no rows of channels. -/
theorem inconsistent_fourChannels :
    ∃ g, threeChannels.generate fourChannelSamples = some g ∧
      (threeChannels.statisticsOf .default g).data.validate
        (threeChannels.statisticsOf .default g).metadata =
          .error (.badShape "MEAN_SPECTRUM" [2, 2, 3] [2, 2, 4]) ∧
      threeChannels.statisticsChecked .default g = .error .assertion ∧
      (threeChannels.statisticsOf .default { g with channelFreqMhz := #[] }).metadata.validate ≠
        .ok () ∧
      (threeChannels.statisticsOf .default { g with channelFreqMhz := #[] }).channelStats .all =
        none := by
  have hadmits : threeChannels.admits fourChannelSamples = true := by decide +kernel
  have hgenerate : (threeChannels.generate fourChannelSamples).isSome := by
    rw [generate, generateIn, reduceIn, if_pos hadmits]
    rfl
  obtain ⟨g, hg⟩ := Option.isSome_iff_exists.mp hgenerate
  obtain ⟨channels, samples, hshape, hshapes⟩ := exists_of_generate hg
  obtain rfl : channels = 4 := by
    simpa using (List.cons.inj (List.cons.inj (List.cons.inj hshape).2).2).1.symm
  have hrefused : StatArrays.validate g.data (threeChannels.headerFor .default g) =
      .error (.badShape "MEAN_SPECTRUM" [2, 2, 3] [2, 2, 4]) := by
    unfold StatArrays.validate
    simp only [hshapes, expectedShape_headerFor]
    rfl
  refine ⟨g, hg, hrefused, ?_, ?_, ?_⟩
  · have hheader : threeChannels.headerChecked .default g =
        .ok (threeChannels.headerFor .default g) :=
      (headerChecked_eq_ok_iff .default).mpr ⟨by decide, rfl⟩
    rw [statisticsChecked, hheader, Checked.ok_bind, validate_headerFor hg, hrefused]
    rfl
  · intro hvalid
    have hsize : 3 = 0 := (Metadata.validate_eq_ok_iff.mp hvalid).size_channelFreqMhz
    exact absurd hsize (by decide)
  · refine Statistics.channelStats_eq_none ?_ .all
    show 0 < 3
    decide

end Config

end VoltageStats
