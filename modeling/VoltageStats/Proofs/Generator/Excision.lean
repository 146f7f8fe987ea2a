import VoltageStats.Proofs.Generator.Band

/-!
# Excision is restriction

The arrays without interference are what the arrays for all channels would be if only the channels
that are not flagged had been sampled (`Config.excision_is_restriction`): the same reduction, of
the configuration `Config.excised` and the samples `Config.excise`. The arrays for all channels do
not depend on the flagged channels.
-/

namespace VoltageStats

/-- Whether an array leaves out the flagged channels. -/
def DataKey.isExcised : DataKey → Bool
  | .meanFrequencyAvgRfiExcised | .varianceFrequencyAvgRfiExcised | .histogramRfiExcised
  | .rebinnedHistogram2dRfiExcised | .rebinnedHistogramRfiExcised | .numClippedRfiExcised
  | .timeseriesRfiExcised => true
  | _ => false

/-- A pattern that is no number. -/
def Binary32.IsNaN (x : Binary32) : Prop := ∃ negative, x.value = .nan negative

/-- Arrays for no channel at all: no measured number is one, and nothing has been counted. -/
structure BandArrays.Vacant (b : BandArrays Binary32 UInt32) : Prop where
  means : ∀ x ∈ b.means.cells, x.IsNaN
  variances : ∀ x ∈ b.variances.cells, x.IsNaN
  histogram : ∀ n ∈ b.histogram.cells, n = 0
  rebinned : ∀ n ∈ b.rebinned.cells, n = 0
  joint : ∀ n ∈ b.joint.cells, n = 0
  clipped : ∀ n ∈ b.clipped.cells, n = 0
  series : ∀ x ∈ b.series.cells, x.IsNaN

namespace Config

variable {R : Type} [Arithmetic R] {c : Config} {raw : Tensor Int}

/-! ## The channels that are left -/

/-- The samples of the channels that are not flagged, in order. -/
def excise (c : Config) (raw : Tensor Int) : Tensor Int :=
  let shape := [polarisationCount, componentCount, c.nonRfiChannels.length, c.samplesPerChannel]
  .ofFn shape fun position =>
    match indexAt shape position with
    | [pol, component, i, sample] =>
      (raw.get? [pol, component, c.nonRfiChannels.getD i 0, sample]).getD 0
    | _ => 0

/-- The samples that are left are those of the channels that are left. -/
theorem get?_excise (hshape : raw.shape = c.sampleShape) (pol component sample : Nat) {i : Nat}
    (hi : i < c.nonRfiChannels.length) :
    (c.excise raw).get? [pol, component, i, sample] =
      raw.get? [pol, component, c.nonRfiChannels[i], sample] := by
  have hchannel : c.nonRfiChannels[i] < c.nchan :=
    (mem_nonRfiChannels.mp (List.getElem_mem hi)).1
  -- An index tuple is in range on one side exactly when it is on the other.
  have hsome : (rowMajor? raw.shape [pol, component, c.nonRfiChannels[i], sample]).isSome =
      (rowMajor? [polarisationCount, componentCount, c.nonRfiChannels.length, c.samplesPerChannel]
        [pol, component, i, sample]).isSome := by
    rw [Bool.eq_iff_iff, isSome_rowMajor?, isSome_rowMajor?, hshape, sampleShape]
    simp [hi, hchannel]
  rw [excise, Tensor.get?_ofFn]
  cases hleft : rowMajor? [polarisationCount, componentCount, c.nonRfiChannels.length,
      c.samplesPerChannel] [pol, component, i, sample] with
  | none =>
      rw [hleft, Option.isSome_none, Option.isSome_eq_false_iff, Option.isNone_iff_eq_none] at hsome
      rw [Option.map_none, Tensor.get?_eq_bind, hsome, Option.bind_none]
  | some position =>
      rw [hleft, Option.isSome_some, Option.isSome_iff_exists] at hsome
      obtain ⟨place, hplace⟩ := hsome
      have hlt : place < raw.cells.size := raw.size_eq ▸ rowMajor?_lt hplace
      have hcell : raw.get? [pol, component, c.nonRfiChannels[i], sample] =
          some raw.cells[place] := by
        rw [Tensor.get?_eq_bind, hplace, Option.bind_some, Array.getElem?_eq_getElem hlt]
      rw [Option.map_some, indexAt_of_rowMajor? hleft]
      simp [hcell, hi]

theorem sampleAt_excise (hshape : raw.shape = c.sampleShape) (pol : Polarisation)
    (component : Component) (sample : Nat) {i : Nat} (hi : i < c.nonRfiChannels.length) :
    (c.excise raw).sampleAt pol component i sample =
      raw.sampleAt pol component c.nonRfiChannels[i] sample := by
  rw [Tensor.sampleAt, get?_excise hshape _ _ _ hi, ← Tensor.sampleAt]

theorem nchan_excised (hkept : c.nonRfiChannels ≠ []) :
    (c.excised hkept).nchan = c.nonRfiChannels.length := by
  show c.excisedSettings.nchan.toNat = _
  exact c.toNat_length_nonRfiChannels

/-- The settings that are left are accepted. -/
theorem ofSettings_excised (hkept : c.nonRfiChannels ≠ []) :
    ofSettings { c.settings with
      nchan := UInt32.ofNat c.nonRfiChannels.length, rfiChannels := [] } =
        .ok (c.excised hkept) :=
  ofSettings_eq_ok_iff.mpr rfl

/-- The samples that are left are such as their configuration is meant for. -/
theorem Takes.excise (h : c.Takes raw) (hkept : c.nonRfiChannels ≠ []) :
    (c.excised hkept).Takes (c.excise raw) where
  samples_lt := by
    have hle : (c.excised hkept).nchan ≤ c.nchan := by
      rw [nchan_excised]
      exact c.length_nonRfiChannels_le
    rw [Nat.mul_assoc]
    exact Nat.lt_of_le_of_lt (Nat.mul_le_mul_right _ hle) (Nat.mul_assoc .. ▸ h.samples_lt)
  nrebin_lt := h.nrebin_lt
  shape_eq := by
    rw [sampleShape, nchan_excised]
    rfl
  inRange := by
    intro sample hmem
    obtain ⟨index, hget⟩ := Tensor.mem_cells_iff.mp hmem
    have hposition := hget
    rw [Config.excise, Tensor.get?_ofFn] at hposition
    obtain ⟨position, hposition, -⟩ := Option.map_eq_some_iff.mp hposition
    -- A tuple that has a position is the one found there, and so it has four indices.
    obtain rfl := indexAt_of_rowMajor? hposition
    have hi := isSome_rowMajor?.mp (Option.isSome_of_eq_some hposition)
    simp only [indexAt, List.forall₂_cons] at hi
    rw [indexAt, indexAt, indexAt, indexAt, indexAt, get?_excise h.shape_eq _ _ _ hi.2.2.1] at hget
    exact h.inRange sample (Tensor.mem_cells_iff.mpr ⟨_, hget⟩)

theorem channelOf_excised (hshape : raw.shape = c.sampleShape) (hkept : c.nonRfiChannels ≠ [])
    (pol : Polarisation) {i : Nat} (hi : i < c.nonRfiChannels.length) :
    (c.excised hkept).channelOf (R := R) (c.excise raw) pol i =
      c.channelOf raw pol c.nonRfiChannels[i] := by
  have hsample := fun component =>
    funext fun sample => sampleAt_excise hshape pol component sample hi
  rw [channelOf, channelOf, hsample, hsample]
  rfl

/-- The arrays that come twice depend on the channels alone, not on which of them there were. -/
theorem bandArrays_excised (hkept : c.nonRfiChannels ≠ [])
    (channels : Polarisation → List (Channel R)) :
    (c.excised hkept).bandArrays channels = c.bandArrays channels := rfl

/-- The arrays without interference are those for all channels, if only the channels that are not
flagged are there. -/
theorem excised_eq_whole (h : c.Takes raw) (hkept : c.nonRfiChannels ≠ []) :
    (c.arraysOf (R := R) raw c.nchan c.samplesPerChannel).excised =
      ((c.excised hkept).arraysOf (c.excise raw) (c.excised hkept).nchan
        (c.excised hkept).samplesPerChannel).whole := by
  rw [excised_arraysOf h.shape_eq, whole_arraysOf (h.excise hkept).shape_eq, bandArrays_excised]
  congr 1
  funext pol
  refine List.ext_getElem (by simp [nchan_excised]) fun i hleft _ => ?_
  have hi : i < c.nonRfiChannels.length := by simpa using hleft
  rw [List.getElem_map, List.getElem_map, List.getElem_range,
    channelOf_excised h.shape_eq hkept pol hi]

/-- If no channel is flagged nothing is left out. -/
theorem excised_eq_whole_of_nil (h : c.Takes raw) (hnil : c.settings.rfiChannels = []) :
    (c.arraysOf (R := R) raw c.nchan c.samplesPerChannel).excised =
      (c.arraysOf raw c.nchan c.samplesPerChannel).whole := by
  rw [excised_arraysOf h.shape_eq, whole_arraysOf h.shape_eq, nonRfiChannels_of_nil hnil]

/-! ## No channel at all -/

theorem isNaN_undefined : (Arithmetic.undefined : Binary64).toBinary32.IsNaN :=
  ⟨false, by decide⟩

/-- Nothing is counted in an empty list. -/
theorem tally_nil {size : Nat} : ∀ count ∈ tally size [], UInt32.ofNat count = 0 := by
  intro count hmem
  obtain ⟨i, hi, rfl⟩ := Vector.mem_iff_getElem.mp hmem
  rw [getElem_tally]
  rfl

/-- Without channels there is nothing to take a mean of and nothing to count. -/
theorem vacant_bandArrays (c : Config) :
    ((c.bandArrays (R := Binary64) fun _ => []).map Binary64.toBinary32 UInt32.ofNat).Vacant where
  means := Tensor.forall_map <| Tensor.forall_ofPolarisations fun _ =>
    forall_componentCells fun _ => isNaN_undefined
  variances := Tensor.forall_map <| Tensor.forall_ofPolarisations fun _ =>
    forall_componentCells fun _ => isNaN_undefined
  histogram := Tensor.forall_map <| Tensor.forall_ofPolarisations fun _ =>
    forall_componentRows fun _ => tally_nil
  rebinned := Tensor.forall_map <| Tensor.forall_ofPolarisations fun _ =>
    forall_componentRows fun _ => tally_nil
  joint := Tensor.forall_map <| Tensor.forall_ofPolarisations fun _ => tally_nil
  clipped := Tensor.forall_map <| Tensor.forall_ofPolarisations fun _ =>
    forall_componentCells fun _ => rfl
  series := Tensor.forall_map <| Tensor.forall_ofPolarisations fun _ =>
    forall_gridCells fun _ statistic => by
      rcases statistic with _ | _ | _ | statistic <;> exact isNaN_undefined

/-! ## The flagged channels -/

/-- The arrays for all channels do not depend on the flagged channels. The second pass over the
samples does, but of what it counts only the joint histogram of all channels is among them. -/
theorem get_arraysOf_congr {other : Config} {flagged : List Nat}
    (hsettings : other.settings = { c.settings with rfiChannels := flagged })
    (hshape : raw.shape = c.sampleShape) {key : DataKey} (hkey : key.isExcised = false) :
    (other.arraysOf (R := R) raw c.nchan c.samplesPerChannel).get key =
      (c.arraysOf raw c.nchan c.samplesPerChannel).get key := by
  obtain ⟨settings, hfault, hflagged⟩ := other
  obtain rfl := hsettings
  have hwhole : (arraysOf (R := R) ⟨_, hfault, hflagged⟩ raw c.nchan c.samplesPerChannel).whole =
      (c.arraysOf raw c.nchan c.samplesPerChannel).whole :=
    Eq.trans (whole_arraysOf hshape) (whole_arraysOf hshape).symm
  have hspectrum :
      (arraysOf (R := R) ⟨_, hfault, hflagged⟩ raw c.nchan
        c.samplesPerChannel).numClippedSpectrum =
        (c.arraysOf (R := R) raw c.nchan c.samplesPerChannel).numClippedSpectrum :=
    Eq.trans (numClippedSpectrum_arraysOf hshape) (numClippedSpectrum_arraysOf hshape).symm
  cases key with
  | meanFrequencyAvg => exact congrArg BandArrays.means hwhole
  | varianceFrequencyAvg => exact congrArg BandArrays.variances hwhole
  | histogram => exact congrArg BandArrays.histogram hwhole
  | rebinnedHistogram => exact congrArg BandArrays.rebinned hwhole
  | rebinnedHistogram2d => exact congrArg BandArrays.joint hwhole
  | numClipped => exact congrArg BandArrays.clipped hwhole
  | timeseries => exact congrArg BandArrays.series hwhole
  | numClippedSpectrum => exact hspectrum
  | meanSpectrum | varianceSpectrum | meanSpectralPower | maxSpectralPower | spectrogram =>
      rw [arraysOf_eq, arraysOf_eq, StatArrays.get_ofFn, StatArrays.get_ofFn]
      rfl
  | _ => cases hkey

theorem Takes.congr {other : Config} {flagged : List Nat}
    (hsettings : other.settings = { c.settings with rfiChannels := flagged }) (h : c.Takes raw) :
    other.Takes raw := by
  obtain ⟨settings, _, _⟩ := other
  obtain rfl := hsettings
  exact ⟨h.samples_lt, h.nrebin_lt, h.shape_eq, h.inRange⟩

/-- Excision is restriction. The arrays without interference are those that are generated for all
channels if there are only the channels that are not flagged; if there are none, nothing is
measured and nothing is counted. The other arrays are the same whichever channels are flagged, and
if none is they are those without interference. -/
theorem excision_is_restriction (h : c.Takes raw) :
    ∃ g, c.generate raw = some g ∧
      (c.nonRfiChannels ≠ [] → ∃ c' g',
        ofSettings { c.settings with
          nchan := UInt32.ofNat c.nonRfiChannels.length, rfiChannels := [] } = .ok c' ∧
        c'.nchan = c.nonRfiChannels.length ∧ (c.excise raw).shape = c'.sampleShape ∧
        c'.generate (c.excise raw) = some g' ∧ g.data.excised = g'.data.whole) ∧
      (c.nonRfiChannels = [] → g.data.excised.Vacant) ∧
      (∀ flagged other, ofSettings { c.settings with rfiChannels := flagged } = .ok other →
        ∃ g', other.generate raw = some g' ∧
          ∀ key : DataKey, key.isExcised = false → g'.data.get key = g.data.get key) ∧
      (c.settings.rfiChannels = [] → g.data.excised = g.data.whole) := by
  obtain ⟨g, hg, hdata⟩ := h.generate_eq
  refine ⟨g, hg, fun hkept => ?_, fun hnil => ?_, fun flagged other hother => ?_, fun hnil => ?_⟩
  · obtain ⟨g', hg', hdata'⟩ := (h.excise hkept).generate_eq
    refine ⟨c.excised hkept, g', ofSettings_excised hkept, nchan_excised hkept,
      (h.excise hkept).shape_eq, hg', ?_⟩
    rw [hdata, hdata', StatArrays.excised_map, StatArrays.whole_map, excised_eq_whole h hkept]
  · rw [hdata, StatArrays.excised_map, excised_arraysOf h.shape_eq, hnil]
    exact c.vacant_bandArrays
  · have hsettings := ofSettings_eq_ok_iff.mp hother
    obtain ⟨g', hg', hdata'⟩ := (h.congr hsettings).generate_eq
    refine ⟨g', hg', fun key hkey => ?_⟩
    have hcounts : other.nchan = c.nchan ∧ other.samplesPerChannel = c.samplesPerChannel := by
      rw [nchan, samplesPerChannel, hsettings]
      exact ⟨rfl, rfl⟩
    rw [hdata, hdata', StatArrays.map, StatArrays.map, StatArrays.get_ofFn, StatArrays.get_ofFn,
      hcounts.1, hcounts.2, get_arraysOf_congr hsettings h.shape_eq hkey]
  · rw [hdata, StatArrays.excised_map, StatArrays.whole_map, excised_eq_whole_of_nil h hnil]

/-- With the middle one of three channels flagged, the arrays without interference are those of the
other two. -/
theorem excision_threeChannels :
    threeChannels.Takes threeChannelSamples ∧ threeChannels.nonRfiChannels = [0, 2] ∧
      ∃ g, threeChannels.generate threeChannelSamples = some g ∧
        ∃ (c' : Config) (g' : Generated), c'.nchan = 2 ∧
          c'.generate (threeChannels.excise threeChannelSamples) = some g' ∧
          g.data.excised = g'.data.whole := by
  have hkept : threeChannels.nonRfiChannels = [0, 2] := by decide
  obtain ⟨g, hg, hrestricted, -⟩ := excision_is_restriction takes_threeChannels
  obtain ⟨c', g', -, hnchan, -, hg', hequal⟩ := hrestricted (by rw [hkept]; decide)
  rw [hkept] at hnchan
  exact ⟨takes_threeChannels, hkept, g, hg, c', g', hnchan, hg', hequal⟩

end Config

end VoltageStats
