import VoltageStats.Proofs.FileTree.RoundTrip
import VoltageStats.Proofs.Generator.Band
import VoltageStats.Proofs.Views.Rows

/-!
# Views enumerate their arrays

What the rows of each of the eight views show: the labels of their place, and the cells that the
arrays have there. The views of statistics that pass the checks list all of their places in order
(`Statistics.views_enumerate`).
-/

namespace VoltageStats

/-! ## What a row shows -/

/-- The arrays without interference, or those for all channels. -/
def StatArrays.variant {R C : Type} (d : StatArrays R C) (flag : Bool) : BandArrays R C :=
  if flag then d.excised else d.whole

namespace Statistics

/-- A row of averages shows the cells at its place. -/
structure ShowsAverages (s : Statistics) (place : Polarisation × Component × Bool)
    (row : FrequencyAveragedRow) : Prop where
  place_eq : (row.pol, row.dim, row.rfiExcised) = place
  mean : (s.data.variant row.rfiExcised).means.get? [row.pol.index, row.dim.index] = some row.mean
  variance : (s.data.variant row.rfiExcised).variances.get? [row.pol.index, row.dim.index] =
    some row.variance
  clipped : (s.data.variant row.rfiExcised).clipped.get? [row.pol.index, row.dim.index] =
    some row.numClippedSamples

/-- A row of a channel shows the cells at its place, with the number and the centre of the
channel. -/
structure ShowsChannel (s : Statistics) (place : (Polarisation × Component) × Nat)
    (row : ChannelRow) : Prop where
  place_eq : (row.pol, row.dim) = place.1
  channel : row.channel.toNat = s.metadata.startChan.toNat + place.2
  frequency : s.metadata.channelFreqMhz[place.2]? = some row.channelFreqMhz
  mean : s.data.meanSpectrum.get? [row.pol.index, row.dim.index, place.2] = some row.mean
  variance : s.data.varianceSpectrum.get? [row.pol.index, row.dim.index, place.2] =
    some row.variance
  clipped : s.data.numClippedSpectrum.get? [row.pol.index, row.dim.index, place.2] =
    some row.numClippedSamples

/-- A row of spectral power shows the cells at its place, with the number and the centre of the
channel. -/
structure ShowsSpectralPower (s : Statistics) (place : Polarisation × Nat)
    (row : SpectralPowerRow) : Prop where
  place_eq : row.pol = place.1
  channel : row.channel.toNat = s.metadata.startChan.toNat + place.2
  frequency : s.metadata.channelFreqMhz[place.2]? = some row.channelFreqMhz
  mean : s.data.meanSpectralPower.get? [row.pol.index, place.2] = some row.mean
  max : s.data.maxSpectralPower.get? [row.pol.index, place.2] = some row.max

/-- A row of a histogram shows the cell at its place, with the raw value of the bin. -/
structure ShowsHistogram (s : Statistics) (place : (Polarisation × Component × Bool) × Nat)
    (row : HistogramRow) : Prop where
  place_eq : (row.pol, row.dim, row.rfiExcised) = place.1
  value : row.value = s.metadata.clipLow + place.2
  count : (s.data.variant row.rfiExcised).histogram.get?
    [row.pol.index, row.dim.index, place.2] = some row.count

/-- A row of a rebinned histogram shows the cell at its place, with the bin. -/
structure ShowsRebinned (s : Statistics) (place : (Polarisation × Component × Bool) × Nat)
    (row : RebinnedHistogramRow) : Prop where
  place_eq : ((row.pol, row.dim, row.rfiExcised), row.bin) = place
  count : (s.data.variant row.rfiExcised).rebinned.get?
    [row.pol.index, row.dim.index, row.bin] = some row.count

/-- A joint histogram shows the cells of its place, those of a real bin in one line. -/
structure ShowsJoint (s : Statistics) (place : Polarisation × Bool) (row : JointHistogram) :
    Prop where
  place_eq : (row.pol, row.rfiExcised) = place
  counts : List.Forall₂ (fun i line => List.Forall₂
    (fun j count => (s.data.variant row.rfiExcised).joint.get? [row.pol.index, i, j] = some count)
    (List.range s.metadata.nrebin.toNat) line) (List.range s.metadata.nrebin.toNat) row.counts

/-- A spectrogram shows the cells of its polarisation, those of a frequency bin in one line, with
one label for each line and one for each cell of a line. -/
structure ShowsSpectrogram (s : Statistics) (pol : Polarisation) (row : Spectrogram) : Prop where
  place_eq : row.pol = pol
  frequencyBins : row.frequencyBins = s.metadata.frequencyBins
  timeseriesBins : row.timeseriesBins = s.metadata.timeseriesBins
  power : List.Forall₂ (fun i line => List.Forall₂
    (fun j power => s.data.spectrogram.get? [row.pol.index, i, j] = some power)
    (List.range row.timeseriesBins.size) line) (List.range row.frequencyBins.size) row.power

/-- A row of a time series shows the cells at its place, with the offset of the temporal bin. -/
structure ShowsSeries (s : Statistics) (place : (Polarisation × Bool) × Nat)
    (row : TimeseriesRow) : Prop where
  place_eq : ((row.pol, row.rfiExcised), row.bin) = place
  offset : s.metadata.timeseriesBins[row.bin]?.map (s.metadata.tMin + ·) = some row.timeOffset
  max : (s.data.variant row.rfiExcised).series.get?
    [row.pol.index, row.bin, SeriesStatistic.max.index] = some row.max
  min : (s.data.variant row.rfiExcised).series.get?
    [row.pol.index, row.bin, SeriesStatistic.min.index] = some row.min
  mean : (s.data.variant row.rfiExcised).series.get?
    [row.pol.index, row.bin, SeriesStatistic.mean.index] = some row.mean

/-! ## Consistent statistics -/

/-- Statistics that pass the checks. -/
structure Consistent (s : Statistics) : Prop where
  header : s.metadata.Consistent
  shapes : ∀ key, s.data.shapeOf key = s.metadata.expectedShape key

theorem consistent_of_ofParts {m : Metadata} {d : Data} {s : Statistics}
    (h : Statistics.ofParts m d = .ok s) : s.Consistent := by
  obtain ⟨hheader, hshapes, rfl⟩ := ofParts_eq_ok_iff.mp h
  exact ⟨Metadata.validate_eq_ok_iff.mp hheader, StatArrays.validate_eq_ok_iff.mp hshapes⟩

end Statistics

/-- The shapes of the arrays that come twice. -/
structure BandArrays.Fits (b : BandArrays Binary32 UInt32) (m : Metadata) : Prop where
  means : b.means.shape = [m.npol.toNat, m.ndim.toNat]
  variances : b.variances.shape = [m.npol.toNat, m.ndim.toNat]
  clipped : b.clipped.shape = [m.npol.toNat, m.ndim.toNat]
  histogram : b.histogram.shape = [m.npol.toNat, m.ndim.toNat, m.histogramNbin.toNat]
  rebinned : b.rebinned.shape = [m.npol.toNat, m.ndim.toNat, m.nrebin.toNat]
  joint : b.joint.shape = [m.npol.toNat, m.nrebin.toNat, m.nrebin.toNat]
  series : b.series.shape = [m.npol.toNat, m.ndatDs.toNat, seriesStatisticCount]

namespace Statistics

variable {s : Statistics} (h : s.Consistent)

include h

theorem Consistent.fits (flag : Bool) : (s.data.variant flag).Fits s.metadata := by
  cases flag with
  | false =>
      exact ⟨h.shapes .meanFrequencyAvg, h.shapes .varianceFrequencyAvg, h.shapes .numClipped,
        h.shapes .histogram, h.shapes .rebinnedHistogram, h.shapes .rebinnedHistogram2d,
        h.shapes .timeseries⟩
  | true =>
      exact ⟨h.shapes .meanFrequencyAvgRfiExcised, h.shapes .varianceFrequencyAvgRfiExcised,
        h.shapes .numClippedRfiExcised, h.shapes .histogramRfiExcised,
        h.shapes .rebinnedHistogramRfiExcised, h.shapes .rebinnedHistogram2dRfiExcised,
        h.shapes .timeseriesRfiExcised⟩

theorem Consistent.pol_lt (pol : Polarisation) : pol.index < s.metadata.npol.toNat :=
  Nat.lt_of_lt_of_eq pol.index_lt h.header.npol_eq.symm

theorem Consistent.dim_lt (dim : Component) : dim.index < s.metadata.ndim.toNat :=
  Nat.lt_of_lt_of_eq dim.index_lt h.header.ndim_eq.symm

/-! ## The views -/

theorem enumerates_frequencyAveraged :
    Enumerates s.frequencyAveraged (Polarisation.all ×ˢ Component.all ×ˢ [false, true])
      s.ShowsAverages fun sel row =>
        sel.admitsPol row.pol && sel.admitsDim row.dim && sel.admitsFlag row.rfiExcised := by
  refine enumerates_of_rows (fun sel => rfl) rfl Selection.triples_eq ?_ ?_
  · intro place
    obtain ⟨pol, dim, flag⟩ := place
    have hlt : List.Forall₂ (· < ·) [pol.index, dim.index]
        [s.metadata.npol.toNat, s.metadata.ndim.toNat] :=
      .cons (h.pol_lt pol) (.cons (h.dim_lt dim) .nil)
    obtain ⟨mean, hmean⟩ := Tensor.exists_get? (h.fits flag).means hlt
    obtain ⟨variance, hvariance⟩ := Tensor.exists_get? (h.fits flag).variances hlt
    obtain ⟨clipped, hclipped⟩ := Tensor.exists_get? (h.fits flag).clipped hlt
    refine ⟨⟨pol, dim, flag, mean, variance, clipped⟩, ?_, ⟨rfl, hmean, hvariance, hclipped⟩⟩
    cases flag <;> simp_all [StatArrays.variant, StatArrays.whole, StatArrays.excised]
  · intro sel place row hrow
    obtain rfl := hrow.place_eq
    rfl

theorem Consistent.toNat_channel {i : Nat} (hi : i < s.metadata.nchan.toNat) :
    (s.metadata.startChan + UInt32.ofNat i).toNat = s.metadata.startChan.toNat + i := by
  have hlast := isSome_checkedEndChan.mp h.header.endChan_isSome
  have hnchan := s.metadata.nchan.toNat_lt
  have hlt : s.metadata.startChan.toNat + i < 2 ^ 32 := by
    show _ < UInt32.size
    omega
  rw [UInt32.toNat_add, UInt32.toNat_ofNat_of_lt' (by omega), Nat.mod_eq_of_lt hlt]

theorem Consistent.exists_channelFreq {i : Nat} (hi : i < s.metadata.nchan.toNat) :
    ∃ frequency, s.metadata.channelFreqMhz[i]? = some frequency :=
  ⟨_, Array.getElem?_eq_getElem (h.header.size_channelFreqMhz ▸ hi)⟩

theorem enumerates_channelStats :
    Enumerates s.channelStats
      ((Polarisation.all ×ˢ Component.all) ×ˢ List.range s.metadata.nchan.toNat)
      s.ShowsChannel fun sel row => sel.admitsPol row.pol && sel.admitsDim row.dim := by
  refine enumerates_of_blocks (fun sel => bind_flatten _) rfl Selection.components_eq ?_ ?_
  · intro place
    obtain ⟨pol, dim⟩ := place
    dsimp only
    rw [channels, List.mapM_map]
    refine exists_mapM fun i hmem => ?_
    have hi : i < s.metadata.nchan.toNat := List.mem_range.mp hmem
    have hlt : List.Forall₂ (· < ·) [pol.index, dim.index, i]
        [s.metadata.npol.toNat, s.metadata.ndim.toNat, s.metadata.nchan.toNat] :=
      .cons (h.pol_lt pol) (.cons (h.dim_lt dim) (.cons hi .nil))
    have hcell {α : Type} {t : Tensor α} (hshape : t.shape = _) := Tensor.exists_get? hshape hlt
    obtain ⟨frequency, hfrequency⟩ := h.exists_channelFreq hi
    obtain ⟨mean, hmean⟩ : ∃ mean, s.data.meanSpectrum.get? _ = some mean :=
      hcell (h.shapes .meanSpectrum)
    obtain ⟨variance, hvariance⟩ : ∃ variance, s.data.varianceSpectrum.get? _ = some variance :=
      hcell (h.shapes .varianceSpectrum)
    obtain ⟨clipped, hclipped⟩ : ∃ clipped, s.data.numClippedSpectrum.get? _ = some clipped :=
      hcell (h.shapes .numClippedSpectrum)
    refine ⟨⟨s.metadata.startChan + UInt32.ofNat i, pol, dim, frequency, mean, variance, clipped⟩,
      ?_, ⟨rfl, h.toNat_channel hi, hfrequency, hmean, hvariance, hclipped⟩⟩
    simp [hfrequency, hmean, hvariance, hclipped]
  · intro sel place i row hrow
    obtain rfl := hrow.place_eq
    rfl

theorem enumerates_spectralPower :
    Enumerates s.spectralPower (Polarisation.all ×ˢ List.range s.metadata.nchan.toNat)
      s.ShowsSpectralPower fun sel row => sel.admitsPol row.pol := by
  refine enumerates_of_blocks (fun sel => bind_flatten _) rfl Selection.pols_eq ?_ ?_
  · intro pol
    dsimp only
    rw [channels, List.mapM_map]
    refine exists_mapM fun i hmem => ?_
    have hi : i < s.metadata.nchan.toNat := List.mem_range.mp hmem
    have hlt : List.Forall₂ (· < ·) [pol.index, i]
        [s.metadata.npol.toNat, s.metadata.nchan.toNat] :=
      .cons (h.pol_lt pol) (.cons hi .nil)
    obtain ⟨frequency, hfrequency⟩ := h.exists_channelFreq hi
    obtain ⟨mean, hmean⟩ : ∃ mean, s.data.meanSpectralPower.get? [pol.index, i] = some mean :=
      Tensor.exists_get? (h.shapes .meanSpectralPower) hlt
    obtain ⟨max, hmax⟩ : ∃ max, s.data.maxSpectralPower.get? [pol.index, i] = some max :=
      Tensor.exists_get? (h.shapes .maxSpectralPower) hlt
    refine ⟨⟨s.metadata.startChan + UInt32.ofNat i, pol, frequency, mean, max⟩, ?_,
      ⟨rfl, h.toNat_channel hi, hfrequency, hmean, hmax⟩⟩
    simp [hfrequency, hmean, hmax]
  · intro sel place i row hrow
    obtain rfl := hrow.place_eq
    rfl

/-- There is a line of counts for each histogram. -/
theorem Consistent.exists_counts {t : Tensor UInt32} {count : Nat} (pol : Polarisation)
    (dim : Component) (hshape : t.shape = [s.metadata.npol.toNat, s.metadata.ndim.toNat, count]) :
    ∃ counts, t.line? [pol.index, dim.index] = some counts ∧
      List.Forall₂ (fun i cell => t.get? [pol.index, dim.index, i] = some cell)
        (List.range count) counts := by
  have hlt : List.Forall₂ (· < ·) [pol.index, dim.index]
      [s.metadata.npol.toNat, s.metadata.ndim.toNat] :=
    .cons (h.pol_lt pol) (.cons (h.dim_lt dim) .nil)
  exact Tensor.exists_line? hshape hlt

theorem enumerates_histogram :
    Enumerates s.histogram ((Polarisation.all ×ˢ Component.all ×ˢ [false, true]) ×ˢ
      List.range s.metadata.histogramNbin.toNat) s.ShowsHistogram fun sel row =>
        sel.admitsPol row.pol && sel.admitsDim row.dim && sel.admitsFlag row.rfiExcised := by
  refine enumerates_of_blocks (fun sel => bind_flatten _) rfl Selection.triples_eq ?_ ?_
  · intro place
    obtain ⟨pol, dim, flag⟩ := place
    obtain ⟨counts, hcounts, hcells⟩ := h.exists_counts pol dim (h.fits flag).histogram
    refine ⟨counts.zipIdx.map fun cell => ⟨pol, dim, flag, s.metadata.clipLow + cell.2, cell.1⟩,
      ?_, ?_⟩
    · cases flag <;>
        simp_all [StatArrays.variant, StatArrays.whole, StatArrays.excised]
    · rw [List.range_eq_range'] at hcells ⊢
      refine List.forall₂_map_right_iff.mpr ((forall₂_zipIdx hcells).imp ?_)
      intro i cell hcell
      exact ⟨rfl, by rw [hcell.2], hcell.1⟩
  · intro sel place i row hrow
    obtain rfl := hrow.place_eq
    rfl

theorem enumerates_rebinnedHistogram :
    Enumerates s.rebinnedHistogram ((Polarisation.all ×ˢ Component.all ×ˢ [false, true]) ×ˢ
      List.range s.metadata.nrebin.toNat) s.ShowsRebinned fun sel row =>
        sel.admitsPol row.pol && sel.admitsDim row.dim && sel.admitsFlag row.rfiExcised := by
  refine enumerates_of_blocks (fun sel => bind_flatten _) rfl Selection.triples_eq ?_ ?_
  · intro place
    obtain ⟨pol, dim, flag⟩ := place
    obtain ⟨counts, hcounts, hcells⟩ := h.exists_counts pol dim (h.fits flag).rebinned
    refine ⟨counts.zipIdx.map fun cell => ⟨pol, dim, flag, cell.2, cell.1⟩, ?_, ?_⟩
    · cases flag <;>
        simp_all [StatArrays.variant, StatArrays.whole, StatArrays.excised]
    · rw [List.range_eq_range'] at hcells ⊢
      refine List.forall₂_map_right_iff.mpr ((forall₂_zipIdx hcells).imp ?_)
      intro i cell hcell
      obtain ⟨hget, rfl⟩ := hcell
      exact ⟨rfl, hget⟩
  · intro sel place i row hrow
    obtain ⟨rfl, -⟩ := Prod.mk.inj hrow.place_eq
    rfl

theorem enumerates_jointHistogram :
    Enumerates s.jointHistogram (Polarisation.all ×ˢ [false, true]) s.ShowsJoint fun sel row =>
      sel.admitsPol row.pol && sel.admitsFlag row.rfiExcised := by
  refine enumerates_of_rows (fun sel => rfl) rfl Selection.variants_eq ?_ ?_
  · intro place
    obtain ⟨pol, flag⟩ := place
    have hlt : List.Forall₂ (· < ·) [pol.index] [s.metadata.npol.toNat] := .cons (h.pol_lt pol) .nil
    obtain ⟨counts, hcounts, hcells⟩ := Tensor.exists_plane? (h.fits flag).joint hlt
    refine ⟨⟨pol, flag, counts⟩, ?_, ⟨rfl, hcells⟩⟩
    cases flag <;> simp_all [StatArrays.variant, StatArrays.whole, StatArrays.excised]
  · intro sel place row hrow
    obtain rfl := hrow.place_eq
    rfl

theorem enumerates_spectrogram :
    Enumerates s.spectrogram Polarisation.all s.ShowsSpectrogram fun sel row =>
      sel.admitsPol row.pol := by
  refine enumerates_of_rows (fun sel => rfl) rfl Selection.pols_eq ?_ ?_
  · intro pol
    have hlt : List.Forall₂ (· < ·) [pol.index] [s.metadata.npol.toNat] := .cons (h.pol_lt pol) .nil
    have hshape : s.data.spectrogram.shape = [s.metadata.npol.toNat] ++
        [s.metadata.frequencyBins.size, s.metadata.timeseriesBins.size] := by
      rw [← h.header.size_frequencyBins, ← h.header.size_timeseriesBins]
      exact h.shapes .spectrogram
    obtain ⟨power, hpower, hcells⟩ := Tensor.exists_plane? hshape hlt
    refine ⟨⟨pol, s.metadata.frequencyBins, s.metadata.timeseriesBins, power⟩, ?_,
      ⟨rfl, rfl, rfl, hcells⟩⟩
    simp [hpower]
  · intro sel place row hrow
    obtain rfl := hrow.place_eq
    rfl

theorem enumerates_timeseries :
    Enumerates s.timeseries ((Polarisation.all ×ˢ [false, true]) ×ˢ
      List.range s.metadata.ndatDs.toNat) s.ShowsSeries fun sel row =>
        sel.admitsPol row.pol && sel.admitsFlag row.rfiExcised := by
  refine enumerates_of_blocks (fun sel => bind_flatten _) rfl Selection.variants_eq ?_ ?_
  · intro place
    obtain ⟨pol, flag⟩ := place
    -- The bins are numbered by way of their labels.
    have hnumbers : List.range s.metadata.ndatDs.toNat =
        s.metadata.timeseriesBins.toList.zipIdx.map Prod.snd := by
      rw [List.zipIdx_map_snd, Array.length_toList, List.range_eq_range',
        h.header.size_timeseriesBins]
    rw [hnumbers]
    simp only [List.forall₂_map_left_iff]
    refine exists_mapM fun label hmem => ?_
    obtain ⟨label, bin⟩ := label
    have hlabel := List.mem_zipIdx_iff_getElem?.mp hmem
    have hbin : bin < s.metadata.ndatDs.toNat := by
      rw [← List.mem_range, hnumbers]
      exact List.mem_map_of_mem hmem
    have hcell (k : SeriesStatistic) :
        ∃ cell, (s.data.variant flag).series.get? [pol.index, bin, k.index] = some cell := by
      have hk : k.index < seriesStatisticCount := by cases k <;> decide
      exact Tensor.exists_get? (h.fits flag).series
        (.cons (h.pol_lt pol) (.cons hbin (.cons hk .nil)))
    obtain ⟨max, hmax⟩ := hcell .max
    obtain ⟨min, hmin⟩ := hcell .min
    obtain ⟨mean, hmean⟩ := hcell .mean
    refine ⟨⟨pol, flag, bin, s.metadata.tMin + label, max, min, mean⟩, ?_,
      ⟨rfl, ?_, hmax, hmin, hmean⟩⟩
    · cases flag <;> simp_all [StatArrays.variant, StatArrays.whole, StatArrays.excised]
    · rw [Array.getElem?_toList] at hlabel
      rw [hlabel]
      rfl
  · intro sel place i row hrow
    obtain ⟨rfl, -⟩ := Prod.mk.inj hrow.place_eq
    rfl

omit h in
/-- Each of the views lists the cells of its arrays exactly, and a selection keeps the rows with
what is selected of the axes that the view has. -/
theorem views_enumerate {m : Metadata} {d : Data} (h : Statistics.ofParts m d = .ok s) :
    Enumerates s.frequencyAveraged (Polarisation.all ×ˢ Component.all ×ˢ [false, true])
      s.ShowsAverages (fun sel row =>
        sel.admitsPol row.pol && sel.admitsDim row.dim && sel.admitsFlag row.rfiExcised) ∧
    Enumerates s.channelStats
      ((Polarisation.all ×ˢ Component.all) ×ˢ List.range s.metadata.nchan.toNat)
      s.ShowsChannel (fun sel row => sel.admitsPol row.pol && sel.admitsDim row.dim) ∧
    Enumerates s.spectralPower (Polarisation.all ×ˢ List.range s.metadata.nchan.toNat)
      s.ShowsSpectralPower (fun sel row => sel.admitsPol row.pol) ∧
    Enumerates s.histogram ((Polarisation.all ×ˢ Component.all ×ˢ [false, true]) ×ˢ
      List.range s.metadata.histogramNbin.toNat) s.ShowsHistogram (fun sel row =>
        sel.admitsPol row.pol && sel.admitsDim row.dim && sel.admitsFlag row.rfiExcised) ∧
    Enumerates s.rebinnedHistogram ((Polarisation.all ×ˢ Component.all ×ˢ [false, true]) ×ˢ
      List.range s.metadata.nrebin.toNat) s.ShowsRebinned (fun sel row =>
        sel.admitsPol row.pol && sel.admitsDim row.dim && sel.admitsFlag row.rfiExcised) ∧
    Enumerates s.jointHistogram (Polarisation.all ×ˢ [false, true]) s.ShowsJoint
      (fun sel row => sel.admitsPol row.pol && sel.admitsFlag row.rfiExcised) ∧
    Enumerates s.spectrogram Polarisation.all s.ShowsSpectrogram
      (fun sel row => sel.admitsPol row.pol) ∧
    Enumerates s.timeseries ((Polarisation.all ×ˢ [false, true]) ×ˢ
      List.range s.metadata.ndatDs.toNat) s.ShowsSeries
      (fun sel row => sel.admitsPol row.pol && sel.admitsFlag row.rfiExcised) := by
  have hs : s.Consistent := consistent_of_ofParts h
  exact ⟨enumerates_frequencyAveraged hs, enumerates_channelStats hs, enumerates_spectralPower hs,
    enumerates_histogram hs, enumerates_rebinnedHistogram hs, enumerates_jointHistogram hs,
    enumerates_spectrogram hs, enumerates_timeseries hs⟩

/-- Statistics of two channels with four raw values, whose counts are all different. -/
def numberedCounts : Statistics where
  metadata :=
    { Metadata.single with
      nchan := 2, ndatDs := 2, histogramNbin := 4, nrebin := 2, channelFreqMhz := #[⟨1⟩, ⟨2⟩]
      timeseriesBins := #[⟨1⟩, ⟨2⟩], numSamplesSpectrum := #[1, 1] }
  data :=
    let counts : Metadata :=
      { Metadata.single with nchan := 2, ndatDs := 2, histogramNbin := 4, nrebin := 2 }
    { FileTree.zeros counts with
      histogram := .ofFn [2, 2, 4] fun i => UInt32.ofNat i
      histogramRfiExcised := .ofFn [2, 2, 4] fun i => UInt32.ofNat (16 + i) }

omit h in
/-- Its histograms have thirty-two rows. -/
theorem histogram_numberedCounts :
    ofParts numberedCounts.metadata numberedCounts.data = .ok numberedCounts ∧
      ∃ rows, numberedCounts.histogram .all = some rows ∧ rows.length = 32 ∧
        numberedCounts.histogram ⟨some .b, none, some true⟩ =
          some (rows.filter fun row => .b = row.pol && row.rfiExcised) := by
  have hparts : ofParts numberedCounts.metadata numberedCounts.data = .ok numberedCounts := by
    refine ofParts_eq_ok_iff.mpr ⟨?_, ?_, rfl⟩ <;> decide +kernel
  obtain ⟨-, -, -, ⟨rows, hrows, hshows, hselected⟩, -⟩ := views_enumerate hparts
  refine ⟨hparts, rows, hrows, hshows.length_eq.symm, ?_⟩
  rw [hselected]
  simp [Selection.admitsPol, Selection.admitsDim, Selection.admitsFlag]

omit h in
example : numberedCounts.histogram ⟨some .b, some .imag, some true⟩ =
    some [⟨.b, .imag, true, -2, 28⟩, ⟨.b, .imag, true, -1, 29⟩, ⟨.b, .imag, true, 0, 30⟩,
      ⟨.b, .imag, true, 1, 31⟩] := by
  decide +kernel

end Statistics

end VoltageStats
