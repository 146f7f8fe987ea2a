import VoltageStats.Proofs.Generator.Counts

/-!
# Samples beyond the configuration

Raw samples with more channels, or with more samples of each, than a configuration has are reduced
as well. The passes over them do not stop at the same place: one goes through all samples that there
are, the other through the configured ones only. So what they count is summed up by two numbers
(`Admitted.sumTo_whole`, `Admitted.sumTo_excised`), and all arrays describe one set of samples
exactly if the raw samples have the configured shape (`Config.one_set_iff_shape`).
-/

namespace VoltageStats

open Finset (range)

variable {α R : Type} {n : Nat}

/-- What the histograms of each polarisation sum to: those of single components, plain and rebinned,
to one number, and the joint ones to another. -/
structure BandArrays.SumTo (b : BandArrays R Nat) (c : Config) (single joint : Nat) : Prop where
  histogram : ∀ (pol : Polarisation) (component : Component),
    ∑ i ∈ range c.nbin, (b.histogram.get? [pol.index, component.index, i]).getD 0 = single
  rebinned : ∀ (pol : Polarisation) (component : Component),
    ∑ i ∈ range c.nrebin, (b.rebinned.get? [pol.index, component.index, i]).getD 0 = single
  joint : ∀ pol : Polarisation,
    ∑ i ∈ range c.nrebin, ∑ j ∈ range c.nrebin, (b.joint.get? [pol.index, i, j]).getD 0 = joint

/-! ## Sums of counts -/

/-- Every item is in the tally of its component. -/
theorem sum_rows (xs : Polarisation → Component → List α) (f : α → Nat) {pol : Polarisation}
    {component : Component} (hlt : ∀ x ∈ xs pol component, f x < n) :
    ∑ i ∈ range n, ((Tensor.ofPolarisations [componentCount, n] fun pol =>
        componentRows fun component => tally n ((xs pol component).map f)).get?
          [pol.index, component.index, i]).getD 0 = (xs pol component).length := by
  rw [← sum_countP_range hlt]
  refine Finset.sum_congr rfl fun i hmem => ?_
  rw [get?_rows pol component (Finset.mem_range.mp hmem), Option.getD_some]

/-- Every item is in the joint tally. -/
theorem sum_joint (xs : Polarisation → List α) (f g : α → Nat) {pol : Polarisation}
    (hf : ∀ x ∈ xs pol, f x < n) (hg : ∀ x ∈ xs pol, g x < n) :
    ∑ i ∈ range n, ∑ j ∈ range n, ((Tensor.ofPolarisations [n, n] fun pol =>
        tally (volume [n, n]) ((xs pol).map fun x => f x * n + g x)).get?
          [pol.index, i, j]).getD 0 = (xs pol).length := by
  rw [← sum_countP_range hf]
  refine Finset.sum_congr rfl fun i hi => ?_
  rw [← sum_countP_and (fun x => f x = i) hg]
  refine Finset.sum_congr rfl fun j hj => ?_
  rw [get?_joint hg (Finset.mem_range.mp hi) (Finset.mem_range.mp hj), Option.getD_some]

/-- Numbers whose sum fits a word are not cut when each of them is put into a word. -/
theorem sum_mod_eq {s : Finset Nat} {g : Nat → Nat} (h : ∑ i ∈ s, g i < 2 ^ 32) :
    ∑ i ∈ s, g i % 2 ^ 32 = ∑ i ∈ s, g i := by
  refine Finset.sum_congr rfl fun i hi => Nat.mod_eq_of_lt ?_
  exact Nat.lt_of_le_of_lt (Finset.single_le_sum (fun _ _ => Nat.zero_le _) hi) h

theorem getD_get?_words (t : Tensor Nat) (index : List Nat) :
    (((t.map UInt32.ofNat).map UInt32.toNat).get? index).getD 0 =
      (t.get? index).getD 0 % 2 ^ 32 := by
  rw [Tensor.get?_map, Tensor.get?_map]
  cases t.get? index with
  | none => rfl
  | some count => exact UInt32.toNat_ofNat'

namespace BandArrays

variable {R' : Type} {b : BandArrays R Nat} {c : Config} {single joint : Nat}

/-- Counts that sum to numbers that fit a word sum to the same when they are put into words. -/
theorem SumTo.words (h : b.SumTo c single joint) (hsingle : single < 2 ^ 32)
    (hjoint : joint < 2 ^ 32) (f : R → R') :
    ((b.map f UInt32.ofNat).map id UInt32.toNat).SumTo c single joint := by
  constructor
  · intro pol component
    have hsum := h.histogram pol component
    simp only [map, getD_get?_words]
    rw [sum_mod_eq (hsum ▸ hsingle), hsum]
  · intro pol component
    have hsum := h.rebinned pol component
    simp only [map, getD_get?_words]
    rw [sum_mod_eq (hsum ▸ hsingle), hsum]
  · intro pol
    have hsum := h.joint pol
    have hrow : ∀ i ∈ range c.nrebin,
        ∑ j ∈ range c.nrebin, (b.joint.get? [pol.index, i, j]).getD 0 < 2 ^ 32 := by
      intro i hi
      refine Nat.lt_of_le_of_lt ?_ (hsum ▸ hjoint)
      exact Finset.single_le_sum (f := fun i => ∑ j ∈ range c.nrebin,
        (b.joint.get? [pol.index, i, j]).getD 0) (fun _ _ => Nat.zero_le _) hi
    simp only [map, getD_get?_words]
    rw [Finset.sum_congr rfl fun i hi => sum_mod_eq (hrow i hi), hsum]

theorem SumTo.unique {single' joint' : Nat} (h : b.SumTo c single joint)
    (h' : b.SumTo c single' joint') : single = single' ∧ joint = joint' :=
  ⟨(h.histogram .a .real).symm.trans (h'.histogram .a .real),
    (h.joint .a).symm.trans (h'.joint .a)⟩

end BandArrays

namespace Config

variable [Arithmetic R] {c : Config} {raw : Tensor Int} {channels samples : Nat}

/-! ## What each pass goes through -/

/-- All samples of all channels that there are, one channel after the other. -/
theorem samplesIn_bandOf
    (hshape : raw.shape = [polarisationCount, componentCount, channels, samples])
    (pol : Polarisation) (component : Component) :
    samplesIn (c.bandOf (R := R) raw channels samples pol).toList component =
      (List.range channels).flatMap fun i =>
        (List.range samples).map (raw.sampleAt pol component i) := by
  rw [← map_channelAt_range, samplesIn, List.flatMap_map]
  refine List.flatMap_congr fun i hmem => ?_
  have hi : i < channels := List.mem_range.mp hmem
  rw [channelAt, Vector.getElem?_eq_getElem hi, Option.getD_some, bandOf, Vector.getElem_ofFn]
  dsimp only
  rw [lane_eq hshape hi rfl, lane_eq hshape hi rfl]
  cases component <;> rfl

/-- There is a pair for each configured sample of some channels. -/
theorem length_pairsIn (pol : Polarisation) (numbers : List Nat) :
    (pairsIn (numbers.map (c.channelOf (R := R) raw pol))).length =
      numbers.length * c.samplesPerChannel := by
  rw [pairsIn_channelOf, ← List.length_map Prod.fst, map_fst_pairsOf, length_valuesOf]

/-- What the histograms of some values, and the joint ones of some channels, sum to. -/
theorem sumTo_bandArraysOf {moments binned pairs : Polarisation → List (Channel R)}
    {values : Polarisation → Component → List Int} {clipped : Polarisation → Component → Nat}
    {single joint : Nat} (hrebin : c.nrebin < 2 ^ 31)
    (hbin : ∀ pol component, ∀ v ∈ values pol component, c.bin v < c.nbin)
    (hsingle : ∀ pol component, (values pol component).length = single)
    (hjoint : ∀ pol, (pairsIn (pairs pol)).length = joint) :
    (c.bandArraysOf moments binned
      (fun pol component => tally c.nbin ((values pol component).map c.bin))
      (fun pol component => tally c.nrebin ((values pol component).map c.rebin))
      (fun pol => jointOf c (pairs pol)) clipped).SumTo c single joint where
  histogram pol component := by
    rw [← hsingle pol component]
    exact sum_rows values c.bin (hbin pol component)
  rebinned pol component := by
    rw [← hsingle pol component]
    exact sum_rows values c.rebin fun v _ => rebin_lt hrebin v
  joint pol := by
    rw [← hjoint pol]
    exact sum_joint (fun pol => pairsIn (pairs pol)) (fun pair => c.rebin pair.1)
      (fun pair => c.rebin pair.2) (fun pair _ => rebin_lt hrebin pair.1)
      fun pair _ => rebin_lt hrebin pair.2

section

variable (h : c.Admitted raw channels samples)

include h

/-- Every sample that there is has a bin. -/
theorem Admitted.bin_samplesIn_lt (pol : Polarisation) (component : Component) :
    ∀ v ∈ samplesIn (c.bandOf (R := R) raw channels samples pol).toList component,
      c.bin v < c.nbin := by
  intro v hmem
  rw [samplesIn_bandOf h.shape_eq] at hmem
  obtain ⟨i, hi, hmem⟩ := List.mem_flatMap.mp hmem
  obtain ⟨sample, hsample, rfl⟩ := List.mem_map.mp hmem
  obtain ⟨hlow, hhigh⟩ := h.sampleAt_inRange (List.mem_range.mp hi) (List.mem_range.mp hsample)
  exact bin_lt hlow hhigh

/-- The histograms of single components for all channels count all samples that there are, and the
joint ones the configured samples. -/
theorem Admitted.sumTo_whole :
    (c.arraysOf (R := R) raw channels samples).whole.SumTo c (channels * samples)
      (c.nchan * c.samplesPerChannel) := by
  rw [whole_arraysOf_eq h.shape_eq h.channels_le h.samples_le]
  refine sumTo_bandArraysOf h.nrebin_lt (h.bin_samplesIn_lt (R := R)) (fun pol component => ?_)
    fun pol => ?_
  · rw [samplesIn_bandOf h.shape_eq]
    simp [List.length_flatMap]
  · rw [length_pairsIn, List.length_range]

/-- All histograms without interference count the configured samples of the channels that are not
flagged. -/
theorem Admitted.sumTo_excised :
    (c.arraysOf (R := R) raw channels samples).excised.SumTo c
      (c.nonRfiChannels.length * c.samplesPerChannel)
      (c.nonRfiChannels.length * c.samplesPerChannel) := by
  have hlt : ∀ i ∈ c.nonRfiChannels, i < c.nchan := fun _ => lt_of_mem_nonRfiChannels
  rw [excised_arraysOf_eq h.shape_eq h.channels_le h.samples_le]
  refine sumTo_bandArraysOf h.nrebin_lt (fun pol component v hmem => ?_) (fun pol component => ?_)
    fun pol => length_pairsIn pol c.nonRfiChannels
  · rw [samplesIn_channelOf] at hmem
    have hrange := h.valuesOf_inRange hlt v hmem
    exact bin_lt hrange.1 hrange.2
  · rw [samplesIn_channelOf, length_valuesOf]

/-! ## One set of samples -/

/-- There are as many samples as configured exactly if they have the configured shape, since there
are no fewer channels and no fewer samples of each. -/
theorem Admitted.count_eq_iff :
    c.nchan * c.samplesPerChannel = channels * samples ↔ raw.shape = c.sampleShape := by
  have hsamples : 0 < samples := Nat.lt_of_lt_of_le c.samplesPerChannel_pos h.samples_le
  rw [mul_eq_mul_iff_eq_and_eq_of_pos h.channels_le h.samples_le c.nchan_pos hsamples, h.shape_eq,
    sampleShape]
  simp [eq_comm]

/-- Sums such as these are those of one set of samples exactly if the shape is the configured one,
and they can only agree with and without interference if it is. -/
theorem Admitted.one_set_of_sumTo {whole excised : BandArrays α Nat}
    (hwhole : whole.SumTo c (channels * samples) (c.nchan * c.samplesPerChannel))
    (hexcised : excised.SumTo c (c.nchan * c.samplesPerChannel)
      (c.nchan * c.samplesPerChannel)) :
    ((∃ count, whole.SumTo c count count) ↔ raw.shape = c.sampleShape) ∧
      (excised = whole → raw.shape = c.sampleShape) := by
  rw [← h.count_eq_iff]
  refine ⟨⟨?_, fun heq => ⟨_, heq ▸ hwhole⟩⟩, ?_⟩
  · rintro ⟨count, hcount⟩
    obtain ⟨hsingle, hjoint⟩ := hwhole.unique hcount
    exact hjoint.trans hsingle.symm
  · rintro rfl
    exact (hexcised.unique hwhole).1

end

/-- Without flagged channels the arrays that are made from configured samples only are the same with
and without interference, and so are the moments if there are no more channels than configured. -/
theorem Admitted.excised_arraysOf_congr (h : c.Admitted raw channels samples)
    (hnil : c.settings.rfiChannels = []) {d : StatArrays R Nat}
    (hd : d = c.arraysOf raw channels samples) :
    d.excised.joint = d.whole.joint ∧ d.excised.clipped = d.whole.clipped ∧
      d.excised.series = d.whole.series ∧
      (channels = c.nchan →
        d.excised.means = d.whole.means ∧ d.excised.variances = d.whole.variances) := by
  have hexcised := excised_arraysOf_eq (R := R) h.shape_eq h.channels_le h.samples_le
  rw [nonRfiChannels_of_nil hnil] at hexcised
  rw [hd, hexcised, whole_arraysOf_eq h.shape_eq h.channels_le h.samples_le]
  refine ⟨rfl, rfl, rfl, ?_⟩
  rintro rfl
  simp only [map_channelAt_range]
  exact ⟨rfl, rfl⟩

/-- Without flagged channels the arrays with and without interference are the same exactly if the
samples have the configured shape. Then, and only then, the histograms of single components and the
joint ones sum to the same number. Those without interference always do. -/
theorem one_set_of_reduce (hnil : c.settings.rfiChannels = []) {d : StatArrays R Nat}
    (hd : c.reduce R raw = some d) :
    (d.excised = d.whole ↔ raw.shape = c.sampleShape) ∧
      ((∃ count, d.whole.SumTo c count count) ↔ raw.shape = c.sampleShape) ∧
      ∃ count, d.excised.SumTo c count count := by
  obtain ⟨channels, samples, h, rfl⟩ := exists_of_reduce hd
  have hexcised := h.sumTo_excised (R := R)
  refine ⟨⟨?_, fun hshape => ?_⟩, ?_, ⟨_, hexcised⟩⟩
  · rw [nonRfiChannels_of_nil hnil, List.length_range] at hexcised
    exact (h.one_set_of_sumTo h.sumTo_whole hexcised).2
  · obtain ⟨rfl, rfl⟩ : channels = c.nchan ∧ samples = c.samplesPerChannel := by
      simpa [h.shape_eq, sampleShape] using hshape
    rw [excised_arraysOf hshape, whole_arraysOf hshape, nonRfiChannels_of_nil hnil]
  · rw [nonRfiChannels_of_nil hnil, List.length_range] at hexcised
    exact (h.one_set_of_sumTo h.sumTo_whole hexcised).1

/-- The same holds of the words that counts are kept in, if there are few enough samples for no
count to be cut. -/
theorem one_set_of_generate (hnil : c.settings.rfiChannels = []) {g : Generated}
    (hg : c.generate raw = some g) (hfew : raw.cells.size < 2 ^ 34) :
    (g.data.excised = g.data.whole ↔ raw.shape = c.sampleShape) ∧
      ((∃ count, (g.data.whole.map id UInt32.toNat).SumTo c count count) ↔
        raw.shape = c.sampleShape) ∧
      ∃ count, (g.data.excised.map id UInt32.toNat).SumTo c count count := by
  obtain ⟨d, hd, rfl⟩ := Option.map_eq_some_iff.mp hg
  have hsame := (one_set_of_reduce hnil hd).1
  obtain ⟨channels, samples, h, rfl⟩ := exists_of_reduce hd
  have hsingle : channels * samples < 2 ^ 32 := by
    rw [raw.size_eq, h.shape_eq] at hfew
    simp only [volume, polarisationCount, componentCount, Nat.mul_one] at hfew
    omega
  have hconfigured : c.nchan * c.samplesPerChannel < 2 ^ 32 :=
    Nat.lt_of_le_of_lt (Nat.mul_le_mul h.channels_le h.samples_le) hsingle
  have hwhole := (h.sumTo_whole (R := Binary64)).words hsingle hconfigured Binary64.toBinary32
  have hexcised := h.sumTo_excised (R := Binary64)
  rw [nonRfiChannels_of_nil hnil, List.length_range] at hexcised
  have hexcised := hexcised.words hconfigured hconfigured Binary64.toBinary32
  have hsums := h.one_set_of_sumTo hwhole hexcised
  refine ⟨⟨fun heq => ?_, fun hshape => ?_⟩, hsums.1, ⟨_, hexcised⟩⟩
  · exact hsums.2 (congrArg (BandArrays.map id UInt32.toNat) heq)
  · exact congrArg (BandArrays.map Binary64.toBinary32 UInt32.ofNat) (hsame.mpr hshape)

/-- Without flagged channels the arrays that samples are reduced to, with and without interference,
are the same exactly if the samples have the configured shape, and exactly then all histograms of
each polarisation sum to the same number. Of other shapes the joint histograms, the clipped samples
and the time series are still the same, and so are the moments if only the channels are as many as
configured. The words that counts are kept in say the same, if no count can be cut. -/
theorem one_set_iff_shape (R : Type) [Arithmetic R] (raw : Tensor Int)
    (hnil : c.settings.rfiChannels = []) :
    (∀ d, c.reduce R raw = some d →
      (d.excised = d.whole ↔ raw.shape = c.sampleShape) ∧
      ((∃ count, d.whole.SumTo c count count) ↔ raw.shape = c.sampleShape) ∧
      (∃ count, d.excised.SumTo c count count) ∧
      d.excised.joint = d.whole.joint ∧ d.excised.clipped = d.whole.clipped ∧
      d.excised.series = d.whole.series ∧
      ∀ samples, raw.shape = [polarisationCount, componentCount, c.nchan, samples] →
        d.excised.means = d.whole.means ∧ d.excised.variances = d.whole.variances) ∧
    ∀ g, c.generate raw = some g → raw.cells.size < 2 ^ 34 →
      (g.data.excised = g.data.whole ↔ raw.shape = c.sampleShape) ∧
      ((∃ count, (g.data.whole.map id UInt32.toNat).SumTo c count count) ↔
        raw.shape = c.sampleShape) ∧
      ∃ count, (g.data.excised.map id UInt32.toNat).SumTo c count count := by
  refine ⟨fun d hd => ?_, fun g hg hfew => one_set_of_generate hnil hg hfew⟩
  obtain ⟨hsame, hwhole, hexcised⟩ := one_set_of_reduce hnil hd
  obtain ⟨channels, samples, h, hdata⟩ := exists_of_reduce hd
  obtain ⟨hjoint, hclipped, hseries, hmoments⟩ := h.excised_arraysOf_congr hnil hdata
  refine ⟨hsame, hwhole, hexcised, hjoint, hclipped, hseries, fun samples' hshape => ?_⟩
  have hchannels : channels = c.nchan := by
    rw [h.shape_eq] at hshape
    simpa using (List.cons.inj (List.cons.inj (List.cons.inj hshape).2).2).1
  exact hmoments hchannels

/-! ## A configuration of two samples -/

/-- A configuration of one channel of two samples. -/
def twoSamples : Config where
  settings :=
    { Settings.default with
      nchan := 1, nsamp := 2, nbit := 8, nfreqBins := 1, ntimeBins := 1, nrebin := 4 }
  fault?_eq_none := by decide +kernel
  pairwise_rfiChannels := pairwise_default

/-- Samples of one channel. -/
def oneChannel (samples : Nat) : Tensor Int :=
  .ofFn [polarisationCount, componentCount, 1, samples] fun _ => 1

theorem exists_generate (hadmits : c.admits raw = true) : ∃ g, c.generate raw = some g := by
  have hreduce : (c.reduce Binary64 raw).isSome := by
    obtain ⟨channels, samples, h⟩ := exists_of_admits hadmits
    rw [reduce, reduceIn, if_pos hadmits, h.shape_eq]
    rfl
  obtain ⟨d, hd⟩ := Option.isSome_iff_exists.mp hreduce
  exact ⟨_, by rw [generate, generateIn, ← reduce, hd, Option.map_some]⟩

/-- Two samples are one set of samples. -/
theorem one_set_twoSamples :
    twoSamples.settings.rfiChannels = [] ∧
      ∃ g, twoSamples.generate (oneChannel 2) = some g ∧ g.data.excised = g.data.whole ∧
        ∃ count, (g.data.whole.map id UInt32.toNat).SumTo twoSamples count count := by
  obtain ⟨g, hg⟩ : ∃ g, twoSamples.generate (oneChannel 2) = some g :=
    exists_generate (by decide +kernel)
  obtain ⟨-, hwords⟩ := @one_set_iff_shape twoSamples Binary64 _ (oneChannel 2) rfl
  obtain ⟨hsame, hsums, -⟩ := hwords g hg (by decide)
  exact ⟨rfl, g, hg, hsame.mpr rfl, hsums.mpr rfl⟩

/-- With a third sample there are two: it is in the histograms of single components, but neither in
the joint ones nor in those without interference. -/
theorem two_sets_threeSamples :
    Config.ofSettings twoSamples.settings = .ok twoSamples ∧ twoSamples.settings.rfiChannels = [] ∧
      ∃ g, twoSamples.generate (oneChannel 3) = some g ∧ g.data.excised ≠ g.data.whole ∧
        ¬ ∃ count, (g.data.whole.map id UInt32.toNat).SumTo twoSamples count count := by
  obtain ⟨g, hg⟩ : ∃ g, twoSamples.generate (oneChannel 3) = some g :=
    exists_generate (by decide +kernel)
  obtain ⟨hsame, hsums, -⟩ := one_set_of_generate rfl hg (by decide)
  have hshape : (oneChannel 3).shape ≠ twoSamples.sampleShape := by decide
  exact ⟨ofSettings_eq_ok_iff.mpr rfl, rfl, g, hg, fun heq => hshape (hsame.mp heq),
    fun hcount => hshape (hsums.mp hcount)⟩

end Config

end VoltageStats
