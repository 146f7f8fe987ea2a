import VoltageStats.Proofs.Generator.Band
import VoltageStats.Proofs.Generator.Tally

/-!
# The counts of generated statistics agree

Every count of generated statistics is a number of samples, or of pairs of samples, with a
property (`Takes.countAt_histogram` and the lemmas after it). So the histograms, the rebinned
histograms and the clipped samples say the same about the channels that they are made from
(`BandArrays.CountsAgree`), and leaving out channels makes no count larger
(`Config.counts_agree`).
-/

namespace VoltageStats

open Finset (range)

/-- The count at an index tuple, zero if there is none. -/
def Tensor.countAt (t : Tensor UInt32) (index : List Nat) : Nat :=
  ((t.get? index).map UInt32.toNat).getD 0

/-- The counts for some channels agree with each other, and with the clipped samples of each
channel. -/
structure BandArrays.CountsAgree (b : BandArrays Binary32 UInt32) (c : Config)
    (spectrum : Tensor UInt32) (channels : List Nat) : Prop where
  /-- Every sample is in the histogram. -/
  total : ∀ (pol : Polarisation) (component : Component),
    ∑ i ∈ range c.nbin, b.histogram.countAt [pol.index, component.index, i] =
      channels.length * (c.settings.nheap.toNat * c.settings.nsamp.toNat)
  /-- A rebinned histogram puts together the bins of the raw values that go to the same place. -/
  rebinned : ∀ (pol : Polarisation) (component : Component), ∀ bin < c.nrebin,
    b.rebinned.countAt [pol.index, component.index, bin] =
      ∑ i ∈ range c.nbin with
          min (max (c.clipLow + (i : Nat) + (c.nrebin / 2 : Nat)) 0) (c.nrebin - 1) = (bin : Int),
        b.histogram.countAt [pol.index, component.index, i]
  joint_real : ∀ pol : Polarisation, ∀ bin < c.nrebin,
    ∑ i ∈ range c.nrebin, b.joint.countAt [pol.index, bin, i] =
      b.rebinned.countAt [pol.index, Component.real.index, bin]
  joint_imag : ∀ pol : Polarisation, ∀ bin < c.nrebin,
    ∑ i ∈ range c.nrebin, b.joint.countAt [pol.index, i, bin] =
      b.rebinned.countAt [pol.index, Component.imag.index, bin]
  /-- The clipped samples are those at the ends of the histogram. -/
  clipped_ends : ∀ (pol : Polarisation) (component : Component),
    b.clipped.countAt [pol.index, component.index] =
      b.histogram.countAt [pol.index, component.index, 0] +
        b.histogram.countAt [pol.index, component.index, c.nbin - 1]
  clipped_spectrum : ∀ (pol : Polarisation) (component : Component),
    b.clipped.countAt [pol.index, component.index] =
      (channels.map fun i => spectrum.countAt [pol.index, component.index, i]).sum

/-- No count is larger than the one beside it. -/
structure BandArrays.CountsLe (small large : BandArrays Binary32 UInt32) : Prop where
  histogram : ∀ (pol : Polarisation) (component : Component) (bin : Nat),
    small.histogram.countAt [pol.index, component.index, bin] ≤
      large.histogram.countAt [pol.index, component.index, bin]
  rebinned : ∀ (pol : Polarisation) (component : Component) (bin : Nat),
    small.rebinned.countAt [pol.index, component.index, bin] ≤
      large.rebinned.countAt [pol.index, component.index, bin]
  joint : ∀ (pol : Polarisation) (re im : Nat),
    small.joint.countAt [pol.index, re, im] ≤ large.joint.countAt [pol.index, re, im]
  clipped : ∀ (pol : Polarisation) (component : Component),
    small.clipped.countAt [pol.index, component.index] ≤
      large.clipped.countAt [pol.index, component.index]

/-! ## Counts in words -/

variable {α : Type} {n : Nat}

theorem countAt_map_of_some {t : Tensor Nat} {index : List Nat} {count : Nat}
    (hget : t.get? index = some count) (hlt : count < 2 ^ 32) :
    (t.map UInt32.ofNat).countAt index = count := by
  rw [Tensor.countAt, Tensor.get?_map, hget]
  exact UInt32.toNat_ofNat_of_lt' hlt

theorem countAt_map_of_none {t : Tensor Nat} {index : List Nat} (hget : t.get? index = none) :
    (t.map UInt32.ofNat).countAt index = 0 := by
  rw [Tensor.countAt, Tensor.get?_map, hget]
  rfl

/-- The number that a tally for each component has for a value. -/
theorem get?_rows {xs : Polarisation → Component → List α} {f : α → Nat} (pol : Polarisation)
    (component : Component) {i : Nat} (hi : i < n) :
    (Tensor.ofPolarisations [componentCount, n] fun pol => componentRows fun component =>
      tally n ((xs pol component).map f)).get? [pol.index, component.index, i] =
        some ((xs pol component).countP (f · = i)) := by
  rw [get?_componentRows fun pol component => tally n ((xs pol component).map f),
    Vector.getElem?_eq_getElem hi, getElem_tally_map hi]

/-- A count in a tally for each component. -/
theorem countAt_rows {xs : Polarisation → Component → List α} {f : α → Nat} {pol : Polarisation}
    {component : Component} (hlt : ∀ x ∈ xs pol component, f x < n)
    (hlength : (xs pol component).length < 2 ^ 32) (i : Nat) :
    ((Tensor.ofPolarisations [componentCount, n] fun pol => componentRows fun component =>
      tally n ((xs pol component).map f)).map UInt32.ofNat).countAt
        [pol.index, component.index, i] = (xs pol component).countP (f · = i) := by
  by_cases hi : i < n
  · exact countAt_map_of_some (get?_rows pol component hi)
      (Nat.lt_of_le_of_lt List.countP_le_length hlength)
  · -- No item is counted where there is no bin, for every item has a bin.
    have hget := get?_componentRows (fun pol component => tally n ((xs pol component).map f))
      pol component i
    rw [Vector.getElem?_eq_none (Nat.le_of_not_lt hi)] at hget
    rw [countAt_map_of_none hget, eq_comm, List.countP_eq_zero]
    intro x hmem heq
    exact hi (of_decide_eq_true heq ▸ hlt x hmem)

/-- Two digits are told from their number. -/
theorem digits_eq_iff {a b i j : Nat} (hb : b < n) (hj : j < n) :
    a * n + b = i * n + j ↔ a = i ∧ b = j := by
  constructor
  · intro heq
    have hdiv := congrArg (· / n) heq
    have hmod := congrArg (· % n) heq
    have hpos : 0 < n := Nat.zero_lt_of_lt hb
    simp only [Nat.mul_comm _ n, Nat.mul_add_div hpos, Nat.mul_add_mod, Nat.div_eq_of_lt hb,
      Nat.div_eq_of_lt hj, Nat.mod_eq_of_lt hb, Nat.mod_eq_of_lt hj, Nat.add_zero] at hdiv hmod
    exact ⟨hdiv, hmod⟩
  · rintro ⟨rfl, rfl⟩
    rfl

/-- The number that a joint tally has for a pair of values. -/
theorem get?_joint {xs : Polarisation → List α} {f g : α → Nat} {pol : Polarisation}
    (hg : ∀ x ∈ xs pol, g x < n) {i j : Nat} (hi : i < n) (hj : j < n) :
    (Tensor.ofPolarisations [n, n] fun pol =>
      tally (volume [n, n]) ((xs pol).map fun x => f x * n + g x)).get? [pol.index, i, j] =
        some ((xs pol).countP fun x => f x = i ∧ g x = j) := by
  have hlt : i * n + j < volume [n, n] := position_lt_volume hi hj
  have hcount : (xs pol).countP (fun x => f x * n + g x = i * n + j) =
      (xs pol).countP fun x => f x = i ∧ g x = j :=
    List.countP_congr fun x hmem => by simp only [digits_eq_iff (hg x hmem) hj]
  rw [get?_plane fun pol => tally (volume [n, n]) ((xs pol).map fun x => f x * n + g x),
    if_pos ⟨hi, hj⟩, Vector.getElem?_eq_getElem hlt, getElem_tally_map hlt, hcount]

/-- A count in a joint tally. -/
theorem countAt_plane {xs : Polarisation → List α} {f g : α → Nat} {pol : Polarisation}
    (hf : ∀ x ∈ xs pol, f x < n) (hg : ∀ x ∈ xs pol, g x < n)
    (hlength : (xs pol).length < 2 ^ 32) (i j : Nat) :
    ((Tensor.ofPolarisations [n, n] fun pol =>
      tally (volume [n, n]) ((xs pol).map fun x => f x * n + g x)).map UInt32.ofNat).countAt
        [pol.index, i, j] = (xs pol).countP fun x => f x = i ∧ g x = j := by
  by_cases hij : i < n ∧ j < n
  · exact countAt_map_of_some (get?_joint hg hij.1 hij.2)
      (Nat.lt_of_le_of_lt List.countP_le_length hlength)
  · have hget := get?_plane
      (fun pol => tally (volume [n, n]) ((xs pol).map fun x => f x * n + g x)) pol i j
    rw [if_neg hij] at hget
    rw [countAt_map_of_none hget, eq_comm, List.countP_eq_zero]
    intro x hmem heq
    obtain ⟨rfl, rfl⟩ := of_decide_eq_true heq
    exact hij ⟨hf x hmem, hg x hmem⟩

/-- A count for each component. -/
theorem countAt_cells {cell : Polarisation → Component → Nat} {pol : Polarisation}
    {component : Component} (hlt : cell pol component < 2 ^ 32) :
    ((Tensor.ofPolarisations [componentCount] fun pol => componentCells (cell pol)).map
      UInt32.ofNat).countAt [pol.index, component.index] = cell pol component :=
  countAt_map_of_some (get?_componentCells cell pol component) hlt

namespace Config

variable {R : Type} [Arithmetic R] {c : Config} {raw : Tensor Int} {pol : Polarisation}
  {component : Component} {numbers : List Nat}

/-! ## Samples of some channels -/

theorem length_valuesOf :
    (c.valuesOf raw pol numbers component).length = numbers.length * c.samplesPerChannel := by
  simp [valuesOf, List.length_flatMap]

/-- There are few enough samples in some of the channels. -/
theorem Takes.length_valuesOf_lt (h : c.Takes raw) (hsub : numbers.Sublist (List.range c.nchan)) :
    (c.valuesOf raw pol numbers component).length < 2 ^ 32 := by
  have hle : numbers.length ≤ c.nchan := by simpa using hsub.length_le
  rw [length_valuesOf]
  exact h.length_mul_lt hle

/-- A sample at a place that there is lies in the range. -/
theorem Admitted.sampleAt_inRange {channels samples : Nat} (h : c.Admitted raw channels samples)
    {channel sample : Nat} (hchannel : channel < channels) (hsample : sample < samples) :
    c.clipLow ≤ raw.sampleAt pol component channel sample ∧
      raw.sampleAt pol component channel sample ≤ c.clipHigh := by
  have hposition := rowMajor?_sample pol component hchannel hsample
  rw [← h.shape_eq] at hposition
  have hlt := rowMajor?_lt hposition
  rw [← raw.size_eq] at hlt
  rw [Tensor.sampleAt, Tensor.get?_eq_bind, hposition, Option.bind_some,
    Array.getElem?_eq_getElem hlt]
  exact h.inRange _ (Array.getElem_mem hlt)

/-- So do the configured samples of some of the configured channels. -/
theorem Admitted.valuesOf_inRange {channels samples : Nat} (h : c.Admitted raw channels samples)
    (hlt : ∀ i ∈ numbers, i < c.nchan) :
    ∀ v ∈ c.valuesOf raw pol numbers component, c.clipLow ≤ v ∧ v ≤ c.clipHigh := by
  intro v hmem
  obtain ⟨i, hi, hmem⟩ := List.mem_flatMap.mp hmem
  obtain ⟨sample, hsample, rfl⟩ := List.mem_map.mp hmem
  exact h.sampleAt_inRange (Nat.lt_of_lt_of_le (hlt i hi) h.channels_le)
    (Nat.lt_of_lt_of_le (List.mem_range.mp hsample) h.samples_le)

theorem Takes.sampleAt_inRange (h : c.Takes raw) {channel sample : Nat}
    (hchannel : channel < c.nchan) (hsample : sample < c.samplesPerChannel) :
    c.clipLow ≤ raw.sampleAt pol component channel sample ∧
      raw.sampleAt pol component channel sample ≤ c.clipHigh :=
  h.admitted.sampleAt_inRange hchannel hsample

theorem Takes.valuesOf_inRange (h : c.Takes raw) (hsub : numbers.Sublist (List.range c.nchan)) :
    ∀ v ∈ c.valuesOf raw pol numbers component, c.clipLow ≤ v ∧ v ≤ c.clipHigh :=
  h.admitted.valuesOf_inRange fun _ hmem => List.mem_range.mp (hsub.subset hmem)

/-- Every sample of some of the channels has a bin. -/
theorem Takes.bin_valuesOf_lt (h : c.Takes raw) (hsub : numbers.Sublist (List.range c.nchan)) :
    ∀ v ∈ c.valuesOf raw pol numbers component, c.bin v < c.nbin := by
  intro v hmem
  have hrange := h.valuesOf_inRange hsub v hmem
  exact bin_lt hrange.1 hrange.2

/-! ## What is counted -/

/-- The arrays that are generated for some channels. -/
def keptArrays (c : Config) (raw : Tensor Int) (numbers : List Nat) : BandArrays Binary32 UInt32 :=
  (c.bandArrays (R := Binary64) fun pol => numbers.map (c.channelOf raw pol)).map
    Binary64.toBinary32 UInt32.ofNat

theorem histogram_keptArrays (c : Config) (raw : Tensor Int) (numbers : List Nat) :
    (c.keptArrays raw numbers).histogram =
      (Tensor.ofPolarisations [componentCount, c.nbin] fun pol => componentRows fun component =>
        tally c.nbin ((c.valuesOf raw pol numbers component).map c.bin)).map UInt32.ofNat := by
  simp only [← samplesIn_channelOf (R := Binary64)]
  rfl

theorem rebinned_keptArrays (c : Config) (raw : Tensor Int) (numbers : List Nat) :
    (c.keptArrays raw numbers).rebinned =
      (Tensor.ofPolarisations [componentCount, c.nrebin] fun pol => componentRows fun component =>
        tally c.nrebin ((c.valuesOf raw pol numbers component).map c.rebin)).map
          UInt32.ofNat := by
  simp only [← samplesIn_channelOf (R := Binary64)]
  rfl

theorem joint_keptArrays (c : Config) (raw : Tensor Int) (numbers : List Nat) :
    (c.keptArrays raw numbers).joint =
      (Tensor.ofPolarisations [c.nrebin, c.nrebin] fun pol =>
        tally (volume [c.nrebin, c.nrebin]) ((c.pairsOf raw pol numbers).map fun pair =>
          c.rebin pair.1 * c.nrebin + c.rebin pair.2)).map UInt32.ofNat := by
  simp only [← pairsIn_channelOf (R := Binary64)]
  rfl

theorem clipped_keptArrays (c : Config) (raw : Tensor Int) (numbers : List Nat) :
    (c.keptArrays raw numbers).clipped =
      (Tensor.ofPolarisations [componentCount] fun pol => componentCells fun component =>
        (c.valuesOf raw pol numbers component).countP c.isClipped).map UInt32.ofNat := by
  simp only [← samplesIn_channelOf (R := Binary64)]
  rfl

/-- The place of a raw value in the rebinned histograms follows from its bin. -/
theorem Takes.rebin_eq_iff (h : c.Takes raw) {v : Int} (hlow : c.clipLow ≤ v) (bin : Nat) :
    c.rebin v = bin ↔
      min (max (c.clipLow + (c.bin v : Nat) + (c.nrebin / 2 : Nat)) 0) (c.nrebin - 1) =
        (bin : Int) := by
  have hpos := c.nrebin_pos
  rw [clipLow_add_bin hlow, rebin, rebinOffset, rebinMax_eq h.nrebin_lt]
  omega

section

variable (h : c.Takes raw) (hsub : numbers.Sublist (List.range c.nchan))

include h hsub

/-- A histogram counts the samples in each bin. -/
theorem Takes.countAt_histogram (pol : Polarisation) (component : Component) (bin : Nat) :
    (c.keptArrays raw numbers).histogram.countAt [pol.index, component.index, bin] =
      (c.valuesOf raw pol numbers component).countP (c.bin · = bin) := by
  rw [histogram_keptArrays, countAt_rows]
  · exact h.bin_valuesOf_lt hsub
  · exact h.length_valuesOf_lt hsub

/-- A rebinned histogram counts the samples in each rebinned bin. -/
theorem Takes.countAt_rebinned (pol : Polarisation) (component : Component) (bin : Nat) :
    (c.keptArrays raw numbers).rebinned.countAt [pol.index, component.index, bin] =
      (c.valuesOf raw pol numbers component).countP (c.rebin · = bin) := by
  rw [rebinned_keptArrays, countAt_rows]
  · exact fun v _ => rebin_lt h.nrebin_lt v
  · exact h.length_valuesOf_lt hsub

/-- A joint histogram counts the pairs of samples in each pair of rebinned bins. -/
theorem Takes.countAt_joint (pol : Polarisation) (re im : Nat) :
    (c.keptArrays raw numbers).joint.countAt [pol.index, re, im] =
      (c.pairsOf raw pol numbers).countP fun pair => c.rebin pair.1 = re ∧ c.rebin pair.2 = im := by
  have hlength : (c.pairsOf raw pol numbers).length < 2 ^ 32 := by
    rw [← List.length_map Prod.fst, map_fst_pairsOf]
    exact h.length_valuesOf_lt hsub
  rw [joint_keptArrays]
  exact countAt_plane (fun pair _ => rebin_lt h.nrebin_lt pair.1)
    (fun pair _ => rebin_lt h.nrebin_lt pair.2) hlength re im

/-- Of the clipped samples there are as many as there are samples at an end of the range. -/
theorem Takes.countAt_clipped (pol : Polarisation) (component : Component) :
    (c.keptArrays raw numbers).clipped.countAt [pol.index, component.index] =
      (c.valuesOf raw pol numbers component).countP c.isClipped := by
  rw [clipped_keptArrays, countAt_cells]
  exact Nat.lt_of_le_of_lt List.countP_le_length (h.length_valuesOf_lt hsub)

/-- The counts that are generated for some channels agree with each other. -/
theorem Takes.countsAgree {spectrum : Tensor UInt32}
    (hspectrum : ∀ (pol : Polarisation) (component : Component), ∀ i ∈ numbers,
      spectrum.countAt [pol.index, component.index, i] =
        ((List.range c.samplesPerChannel).map (raw.sampleAt pol component i)).countP
          c.isClipped) :
    (c.keptArrays raw numbers).CountsAgree c spectrum numbers where
  total pol component := by
    simp only [h.countAt_histogram hsub]
    rw [sum_countP_range (h.bin_valuesOf_lt hsub), length_valuesOf, samplesPerChannel]
  rebinned pol component bin _ := by
    simp only [h.countAt_histogram hsub]
    rw [h.countAt_rebinned hsub, sum_countP_eq]
    refine List.countP_congr fun v hmem => ?_
    rw [decide_eq_true_eq, decide_eq_true_eq, Finset.mem_filter, Finset.mem_range,
      and_iff_right (h.bin_valuesOf_lt hsub v hmem)]
    exact h.rebin_eq_iff (h.valuesOf_inRange hsub v hmem).1 bin
  joint_real pol bin _ := by
    have hlt : ∀ pair ∈ c.pairsOf raw pol numbers, c.rebin pair.2 < c.nrebin :=
      fun pair _ => rebin_lt h.nrebin_lt pair.2
    simp only [h.countAt_joint hsub]
    rw [sum_countP_and (fun pair => c.rebin pair.1 = bin) hlt, h.countAt_rebinned hsub,
      ← map_fst_pairsOf, List.countP_map]
    rfl
  joint_imag pol bin _ := by
    have hlt : ∀ pair ∈ c.pairsOf raw pol numbers, c.rebin pair.1 < c.nrebin :=
      fun pair _ => rebin_lt h.nrebin_lt pair.1
    simp only [h.countAt_joint hsub, and_comm (b := c.rebin _ = bin)]
    rw [sum_countP_and (fun pair => c.rebin pair.2 = bin) hlt, h.countAt_rebinned hsub,
      ← map_snd_pairsOf, List.countP_map]
    rfl
  clipped_ends pol component := by
    -- The first and the last bin are two bins, so no sample is counted twice.
    have hends : 0 ≠ c.nbin - 1 := by
      have hpos := c.nbitLimit_pos
      rw [nbin_eq]
      omega
    have hsum := sum_countP_eq {0, c.nbin - 1} c.bin (c.valuesOf raw pol numbers component)
    rw [Finset.sum_pair hends] at hsum
    rw [h.countAt_histogram hsub, h.countAt_histogram hsub, h.countAt_clipped hsub, hsum]
    refine List.countP_congr fun v hmem => ?_
    have hrange := h.valuesOf_inRange hsub v hmem
    rw [isClipped_iff hrange.1 hrange.2]
    simp
  clipped_spectrum pol component := by
    rw [h.countAt_clipped hsub, valuesOf, List.countP_flatMap]
    refine congrArg List.sum (List.map_congr_left fun i hmem => ?_)
    exact (hspectrum pol component i hmem).symm

end

/-- Fewer channels make no count larger. -/
theorem Takes.countsLe {fewer : List Nat} (h : c.Takes raw)
    (hfewer : fewer.Sublist numbers) (hsub : numbers.Sublist (List.range c.nchan)) :
    (c.keptArrays raw fewer).CountsLe (c.keptArrays raw numbers) := by
  have hsub' := hfewer.trans hsub
  constructor
  · intro pol component bin
    rw [h.countAt_histogram hsub', h.countAt_histogram hsub]
    exact (hfewer.flatMap _).countP_le
  · intro pol component bin
    rw [h.countAt_rebinned hsub', h.countAt_rebinned hsub]
    exact (hfewer.flatMap _).countP_le
  · intro pol re im
    rw [h.countAt_joint hsub', h.countAt_joint hsub]
    exact (hfewer.flatMap _).countP_le
  · intro pol component
    rw [h.countAt_clipped hsub', h.countAt_clipped hsub]
    exact (hfewer.flatMap _).countP_le

/-! ## Generated statistics -/

/-- What is generated is made from all channels, from those that are not flagged, and from the
clipped samples of each. -/
theorem Takes.generate_counts (h : c.Takes raw) :
    ∃ g, c.generate raw = some g ∧ g.data.whole = c.keptArrays raw (List.range c.nchan) ∧
      g.data.excised = c.keptArrays raw c.nonRfiChannels ∧
      ∀ (pol : Polarisation) (component : Component), ∀ i < c.nchan,
        g.data.numClippedSpectrum.countAt [pol.index, component.index, i] =
          ((List.range c.samplesPerChannel).map (raw.sampleAt pol component i)).countP
            c.isClipped := by
  obtain ⟨g, hg, hdata⟩ := h.generate_eq
  refine ⟨g, hg, ?_, ?_, fun pol component i hi => ?_⟩
  · rw [hdata, StatArrays.whole_map, whole_arraysOf h.shape_eq, keptArrays]
  · rw [hdata, StatArrays.excised_map, excised_arraysOf h.shape_eq, keptArrays]
  · have hspectrum : g.data.numClippedSpectrum =
        (c.arraysOf (R := Binary64) raw c.nchan c.samplesPerChannel).numClippedSpectrum.map
          UInt32.ofNat := by
      rw [hdata]
      rfl
    rw [hspectrum]
    refine countAt_map_of_some (get?_numClippedSpectrum h.shape_eq pol component hi) ?_
    refine Nat.lt_of_le_of_lt List.countP_le_length ?_
    rw [List.length_map, List.length_range]
    exact h.samplesPerChannel_lt

/-- The counts of generated statistics agree with each other, those for all channels and those for
the channels that are not flagged, and none of the latter is larger than the former. -/
theorem counts_agree (h : c.Takes raw) :
    ∃ g, c.generate raw = some g ∧
      g.data.whole.CountsAgree c g.data.numClippedSpectrum (List.range c.nchan) ∧
      g.data.excised.CountsAgree c g.data.numClippedSpectrum c.nonRfiChannels ∧
      c.nonRfiChannels.length = c.nchan - c.settings.rfiChannels.length ∧
      g.data.excised.CountsLe g.data.whole := by
  obtain ⟨g, hg, hwhole, hexcised, hspectrum⟩ := h.generate_counts
  have hall : (List.range c.nchan).Sublist (List.range c.nchan) := List.Sublist.refl _
  have hkept : c.nonRfiChannels.Sublist (List.range c.nchan) := List.filter_sublist
  refine ⟨g, hg, ?_, ?_, c.length_nonRfiChannels, ?_⟩
  · rw [hwhole]
    exact h.countsAgree hall fun pol component i hi =>
      hspectrum pol component i (List.mem_range.mp hi)
  · rw [hexcised]
    exact h.countsAgree hkept fun pol component i hi =>
      hspectrum pol component i (List.mem_range.mp (hkept.subset hi))
  · rw [hwhole, hexcised]
    exact h.countsLe hkept hall

/-- With one of three channels of two samples flagged, four samples are in the histogram without
interference. -/
theorem counts_threeChannels :
    threeChannels.Takes threeChannelSamples ∧
      ∃ g, threeChannels.generate threeChannelSamples = some g ∧
        ∑ i ∈ range 256, g.data.excised.histogram.countAt [0, 1, i] = 4 := by
  obtain ⟨g, hg, -, hexcised, -⟩ := counts_agree takes_threeChannels
  have htotal := hexcised.total .a .imag
  exact ⟨takes_threeChannels, g, hg, htotal⟩

end Config

end VoltageStats
