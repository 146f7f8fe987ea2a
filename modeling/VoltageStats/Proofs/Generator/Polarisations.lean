import VoltageStats.Proofs.Generator.Power
import VoltageStats.Proofs.Statistics

/-!
# Polarisations never mix

What is found in a generated array under one polarisation depends on the samples of this
polarisation alone (`Config.agreesIn_arraysIn`), and what is found there of one channel, in the
arrays that have channels, on those of this channel (`Config.agreesAt_arraysIn`). Exchanging the
polarisations of the samples exchanges those of every array (`Config.polarisations_separate`). The
order in which powers lie makes no difference but to the rounding of the spectrogram
(`Config.get_arraysIn_congr`, `Config.spectrogram_arraysIn_rat`), and to that it does make one
(`Config.spectrograms_differ`).
-/

namespace VoltageStats

variable {α β R C : Type}

/-- The polarisation beside a polarisation. -/
def Polarisation.other : Polarisation → Polarisation
  | .a => .b
  | .b => .a

/-! ## Tensors of two polarisations -/

namespace Tensor

theorem get?_map_congr {t t' : Tensor α} {index : List Nat} (f : α → β)
    (h : t.get? index = t'.get? index) : (t.map f).get? index = (t'.map f).get? index := by
  rw [get?_map, get?_map, h]

/-- Two tensors of one shape hold the same cells in one polarisation. -/
structure AgreesIn (pol : Polarisation) (t t' : Tensor α) : Prop where
  shape_eq : t.shape = t'.shape
  get?_eq : ∀ index, t.get? (pol.index :: index) = t'.get? (pol.index :: index)

theorem AgreesIn.map {t t' : Tensor α} {pol : Polarisation} (h : t.AgreesIn pol t') (f : α → β) :
    (t.map f).AgreesIn pol (t'.map f) :=
  ⟨h.shape_eq, fun index => get?_map_congr f (h.get?_eq index)⟩

theorem agreesIn_ofPolarisations {shape : List Nat}
    {cells cells' : Polarisation → Vector α (volume shape)} {pol : Polarisation}
    (h : cells pol = cells' pol) :
    (ofPolarisations shape cells).AgreesIn pol (ofPolarisations shape cells') :=
  ⟨rfl, fun index => by rw [get?_ofPolarisations, get?_ofPolarisations, h]⟩

/-- The tensor with the two halves of its cells exchanged. If its first axis is that of the
polarisations, these are exchanged (`get?_exchange`). -/
def exchange (t : Tensor α) : Tensor α :=
  ⟨t.shape, t.cells.extract (t.cells.size / 2) ++ t.cells.extract 0 (t.cells.size / 2), by
    rw [← t.size_eq, Array.size_append, Array.size_extract, Array.size_extract]
    omega⟩

theorem shape_exchange (t : Tensor α) : t.exchange.shape = t.shape := rfl

/-- What is in the one half is in the other, and no cell is lost. -/
theorem mem_cells_exchange {t : Tensor α} {cell : α} :
    cell ∈ t.exchange.cells ↔ cell ∈ t.cells := by
  have hhalves : t.cells.extract 0 (t.cells.size / 2) ++ t.cells.extract (t.cells.size / 2) =
      t.cells := by
    rw [Array.extract_append_extract]
    simp
  conv_rhs => rw [← hhalves]
  rw [exchange, Array.mem_append, Array.mem_append, or_comm]

theorem exchange_map (f : α → β) (t : Tensor α) : (t.map f).exchange = t.exchange.map f := by
  simp [exchange, map]

theorem exchange_ofPolarisations {shape : List Nat}
    (cells : Polarisation → Vector α (volume shape)) :
    (ofPolarisations shape cells).exchange = ofPolarisations shape fun pol => cells pol.other := by
  have hhalf : ((cells .a).toArray ++ (cells .b).toArray).size / 2 = (cells .a).toArray.size := by
    rw [Array.size_append, Vector.size_toArray, Vector.size_toArray]
    omega
  simp only [exchange, ofPolarisations, hhalf]
  congr 1
  rw [Array.extract_append_left, Array.extract_append_of_size_left_le_start (Nat.le_refl _),
    Array.size_append, Nat.sub_self, Nat.add_sub_cancel_left, Array.extract_size,
    Array.extract_size]
  rfl

/-- Under a polarisation is found what was under the other. -/
theorem get?_exchange {t : Tensor α} {shape : List Nat}
    (hshape : t.shape = polarisationCount :: shape) (pol : Polarisation) (index : List Nat) :
    t.exchange.get? (pol.index :: index) = t.get? (pol.other.index :: index) := by
  have hsize : t.cells.size = 2 * volume shape := by
    rw [t.size_eq, hshape, volume, polarisationCount]
  have hcells : t.exchange.cells =
      t.cells.extract (volume shape) ++ t.cells.extract 0 (volume shape) := by
    have hhalf : t.cells.size / 2 = volume shape := by omega
    simp only [exchange, hhalf]
  have hfirst : (t.cells.extract (volume shape)).size = volume shape := by
    rw [Array.size_extract]
    omega
  rw [get?_eq_bind, get?_eq_bind, hcells, shape_exchange, hshape, rowMajor?, rowMajor?,
    if_pos pol.index_lt, if_pos pol.other.index_lt, Option.bind_map, Option.bind_map]
  refine Option.bind_congr fun position hposition => ?_
  have hlt : position < volume shape := rowMajor?_lt hposition
  cases pol with
  | a =>
      have hleft : position < (t.cells.extract (volume shape)).size := by omega
      have hcell : position < t.cells.size - volume shape := by omega
      simp [Polarisation.index, Polarisation.other, Array.getElem?_append_left hleft, hcell]
  | b =>
      have hright : (t.cells.extract (volume shape)).size ≤ volume shape + position := by omega
      have hcell : position < t.cells.size := by omega
      simp [Polarisation.index, Polarisation.other, hfirst, hlt, hcell]

end Tensor

/-! ## Sets of arrays -/

namespace StatArrays

variable {R' C' : Type} {d d' : StatArrays R C} {pol : Polarisation} {channel : Nat}

/-- Two sets of arrays hold the same of one channel in one polarisation, in each of the arrays that
have channels. -/
structure AgreesAt (pol : Polarisation) (channel : Nat) (d d' : StatArrays R C) : Prop where
  meanSpectrum : ∀ component : Component,
    d.meanSpectrum.get? [pol.index, component.index, channel] =
      d'.meanSpectrum.get? [pol.index, component.index, channel]
  varianceSpectrum : ∀ component : Component,
    d.varianceSpectrum.get? [pol.index, component.index, channel] =
      d'.varianceSpectrum.get? [pol.index, component.index, channel]
  numClippedSpectrum : ∀ component : Component,
    d.numClippedSpectrum.get? [pol.index, component.index, channel] =
      d'.numClippedSpectrum.get? [pol.index, component.index, channel]
  meanSpectralPower :
    d.meanSpectralPower.get? [pol.index, channel] = d'.meanSpectralPower.get? [pol.index, channel]
  maxSpectralPower :
    d.maxSpectralPower.get? [pol.index, channel] = d'.maxSpectralPower.get? [pol.index, channel]

theorem AgreesAt.map (h : d.AgreesAt pol channel d') (f : R → R') (g : C → C') :
    (d.map f g).AgreesAt pol channel (d'.map f g) where
  meanSpectrum component := Tensor.get?_map_congr f (h.meanSpectrum component)
  varianceSpectrum component := Tensor.get?_map_congr f (h.varianceSpectrum component)
  numClippedSpectrum component := Tensor.get?_map_congr g (h.numClippedSpectrum component)
  meanSpectralPower := Tensor.get?_map_congr f h.meanSpectralPower
  maxSpectralPower := Tensor.get?_map_congr f h.maxSpectralPower

theorem agreesIn_mapElements (f : R → R') (g : C → C') {kind : ElementKind}
    {t t' : Tensor (kind.Element R C)} (h : t.AgreesIn pol t') :
    (mapElements f g kind t).AgreesIn pol (mapElements f g kind t') := by
  cases kind with
  | real => exact h.map f
  | count => exact h.map g

theorem exchange_mapElements (f : R → R') (g : C → C') {kind : ElementKind}
    (t : Tensor (kind.Element R C)) :
    (mapElements f g kind t).exchange = mapElements f g kind t.exchange := by
  cases kind with
  | real => exact Tensor.exchange_map f t
  | count => exact Tensor.exchange_map g t

end StatArrays

/-! ## Arrays of raw samples -/

namespace Config

variable [Arithmetic R] {c : Config} {raw raw' : Tensor Int} {pol : Polarisation}
  {order order' : PowerOrder}

omit [Arithmetic R] in
theorem sampleAt_congr {pol' : Polarisation} {component : Component} {channel : Nat}
    (h : ∀ sample : Nat, raw.get? [pol.index, component.index, channel, sample] =
      raw'.get? [pol'.index, component.index, channel, sample]) :
    raw.sampleAt pol component channel = raw'.sampleAt pol' component channel := by
  funext sample
  rw [Tensor.sampleAt, Tensor.sampleAt, h]

/-- A channel is made from its samples. -/
theorem channelOf_congr {pol' : Polarisation} {channel : Nat}
    (h : ∀ (component : Component) (sample : Nat),
      raw.get? [pol.index, component.index, channel, sample] =
        raw'.get? [pol'.index, component.index, channel, sample]) :
    c.channelOf (R := R) raw pol channel = c.channelOf raw' pol' channel := by
  have hsample := fun component => sampleAt_congr (h component)
  simp only [channelOf, hsample]

/-- A band is made from the samples of its polarisation. -/
theorem bandOf_congr {pol' : Polarisation} (hshape : raw.shape = c.sampleShape)
    (hshape' : raw'.shape = c.sampleShape)
    (h : ∀ index, raw.get? (pol.index :: index) = raw'.get? (pol'.index :: index)) :
    c.bandOf (R := R) raw c.nchan c.samplesPerChannel pol =
      c.bandOf raw' c.nchan c.samplesPerChannel pol' := by
  have hchannel : ∀ channel,
      c.channelOf (R := R) raw pol channel = c.channelOf raw' pol' channel :=
    fun channel => channelOf_congr fun component sample => h [component.index, channel, sample]
  rw [bandOf_eq hshape, bandOf_eq hshape']
  simp only [hchannel]

/-- No array but the spectrogram depends on the order in which powers lie. -/
theorem get_arraysIn_congr {key : DataKey} (hkey : key ≠ .spectrogram ∨ order = order')
    (raw : Tensor Int) (channels samples : Nat) :
    (c.arraysIn (R := R) order raw channels samples).get key =
      (c.arraysIn (R := R) order' raw channels samples).get key := by
  rcases hkey with hkey | rfl
  · cases key with
    | spectrogram => exact absurd rfl hkey
    | _ => rfl
  · rfl

/-- In exact arithmetic the spectrogram does not depend on it either. -/
theorem spectrogram_arraysIn_rat (c : Config) (order order' : PowerOrder) (raw : Tensor Int)
    (channels samples : Nat) :
    (c.arraysIn (R := ℚ) order raw channels samples).spectrogram =
      (c.arraysIn (R := ℚ) order' raw channels samples).spectrogram := by
  simp only [spectrogram_arraysIn, blockPower_rat]

theorem agreesIn_arraysIn (hshape : raw.shape = c.sampleShape) (h : raw.AgreesIn pol raw')
    {key : DataKey} (hkey : key ≠ .spectrogram ∨ order = order') :
    ((c.arraysIn (R := R) order raw c.nchan c.samplesPerChannel).get key).AgreesIn pol
      ((c.arraysIn (R := R) order' raw' c.nchan c.samplesPerChannel).get key) := by
  rw [← get_arraysIn_congr hkey raw', arraysIn_eq, arraysIn_eq, StatArrays.get_ofFn,
    StatArrays.get_ofFn]
  refine Tensor.agreesIn_ofPolarisations ?_
  rw [bandOf_congr hshape (h.shape_eq ▸ hshape) h.get?_eq]

/-- What the arrays say of a channel is made from the samples of the channel. -/
theorem agreesAt_arraysOf {channel : Nat} (hshape : raw.shape = c.sampleShape)
    (hshape' : raw'.shape = c.sampleShape) (hchannel : channel < c.nchan)
    (h : ∀ (component : Component) (sample : Nat),
      raw.get? [pol.index, component.index, channel, sample] =
        raw'.get? [pol.index, component.index, channel, sample]) :
    (c.arraysOf (R := R) raw c.nchan c.samplesPerChannel).AgreesAt pol channel
      (c.arraysOf raw' c.nchan c.samplesPerChannel) := by
  have hsame : c.channelOf (R := R) raw pol channel = c.channelOf raw' pol channel :=
    channelOf_congr h
  refine
    { meanSpectrum := fun component => ?_
      varianceSpectrum := fun component => ?_
      numClippedSpectrum := fun component => ?_
      meanSpectralPower := ?_
      maxSpectralPower := ?_ }
  · rw [get?_meanSpectrum hshape pol component hchannel,
      get?_meanSpectrum hshape' pol component hchannel, hsame]
  · rw [get?_varianceSpectrum hshape pol component hchannel,
      get?_varianceSpectrum hshape' pol component hchannel, hsame]
  · rw [get?_numClippedSpectrum hshape pol component hchannel,
      get?_numClippedSpectrum hshape' pol component hchannel, sampleAt_congr (h component)]
  · rw [get?_meanSpectralPower hshape pol hchannel, get?_meanSpectralPower hshape' pol hchannel,
      ← powers_channelOf, ← powers_channelOf, hsame]
  · rw [get?_maxSpectralPower hshape pol hchannel, get?_maxSpectralPower hshape' pol hchannel,
      ← powers_channelOf, ← powers_channelOf, hsame]

/-- The arrays that have channels are the same whatever the orders in which powers lie. -/
theorem agreesAt_arraysIn {channel : Nat} (order order' : PowerOrder)
    (hshape : raw.shape = c.sampleShape) (hshape' : raw'.shape = c.sampleShape)
    (hchannel : channel < c.nchan)
    (h : ∀ (component : Component) (sample : Nat),
      raw.get? [pol.index, component.index, channel, sample] =
        raw'.get? [pol.index, component.index, channel, sample]) :
    (c.arraysIn (R := R) order raw c.nchan c.samplesPerChannel).AgreesAt pol channel
      (c.arraysIn order' raw' c.nchan c.samplesPerChannel) := by
  obtain ⟨hmean, hvariance, hclipped, hmeanPower, hmaxPower⟩ :=
    agreesAt_arraysOf (R := R) hshape hshape' hchannel h
  exact ⟨hmean, hvariance, hclipped, hmeanPower, hmaxPower⟩

theorem arraysIn_exchange (order : PowerOrder) (hshape : raw.shape = c.sampleShape)
    (key : DataKey) :
    (c.arraysIn (R := R) order raw.exchange c.nchan c.samplesPerChannel).get key =
      ((c.arraysIn (R := R) order raw c.nchan c.samplesPerChannel).get key).exchange := by
  have hband : ∀ pol, c.bandOf (R := R) raw.exchange c.nchan c.samplesPerChannel pol =
      c.bandOf raw c.nchan c.samplesPerChannel pol.other :=
    fun pol => bandOf_congr hshape hshape (Tensor.get?_exchange hshape pol)
  rw [arraysIn_eq, arraysIn_eq, StatArrays.get_ofFn, StatArrays.get_ofFn,
    Tensor.exchange_ofPolarisations]
  simp only [hband]

omit [Arithmetic R] in
/-- Which samples there are does not depend on the polarisation that they are in. -/
theorem admits_exchange (hshape : raw.shape = c.sampleShape) :
    c.admits raw.exchange = c.admits raw := by
  have hrange : raw.exchange.cells.all (fun sample => c.clipLow ≤ sample && sample ≤ c.clipHigh) =
      raw.cells.all fun sample => c.clipLow ≤ sample && sample ≤ c.clipHigh := by
    rw [Bool.eq_iff_iff, Array.all_eq_true', Array.all_eq_true']
    simp only [Tensor.mem_cells_exchange]
  simp only [admits, Tensor.shape_exchange, hshape, sampleShape, hrange, decide_true,
    Bool.true_or]

/-! ## Generated arrays -/

omit [Arithmetic R] in
/-- What is generated from raw samples of the configured shape. -/
theorem generateIn_of_shape {g : Generated} (hshape : raw.shape = c.sampleShape)
    (hg : c.generateIn order raw = some g) :
    c.admits raw = true ∧
      g.data = (c.arraysIn (R := Binary64) order raw c.nchan c.samplesPerChannel).map
        Binary64.toBinary32 UInt32.ofNat := by
  obtain ⟨arrays, harrays, rfl⟩ := Option.map_eq_some_iff.mp hg
  rw [reduceIn_of_shape order hshape] at harrays
  split at harrays
  next hadmits => exact ⟨hadmits, by rw [Option.some.inj harrays]⟩
  · cases harrays

omit [Arithmetic R] in
/-- Samples whose polarisations are exchanged can be reduced if they can be as they are. -/
theorem generateIn_exchange {g : Generated} (hshape : raw.shape = c.sampleShape)
    (hg : c.generateIn order raw = some g) (order' : PowerOrder) :
    ∃ exchanged, c.generateIn order' raw.exchange = some exchanged ∧
      ∀ key, key ≠ .spectrogram ∨ order = order' →
        exchanged.data.get key = (g.data.get key).exchange := by
  obtain ⟨hadmits, hdata⟩ := generateIn_of_shape hshape hg
  rw [generateIn, reduceIn_of_shape order' (raw.shape_exchange.trans hshape),
    if_pos ((admits_exchange hshape).trans hadmits)]
  refine ⟨_, rfl, fun key hkey => ?_⟩
  rw [hdata, StatArrays.get_map, StatArrays.get_map, StatArrays.exchange_mapElements,
    arraysIn_exchange order' hshape, get_arraysIn_congr hkey]

/-- What is generated in a polarisation, and of a channel in it, depends on the samples there and on
no others, and exchanging the polarisations of the samples exchanges those of every array. The
spectrograms are only compared where the powers lie in the same order. -/
theorem polarisations_separate {g g' : Generated} (hshape : raw.shape = c.sampleShape)
    (hshape' : raw'.shape = c.sampleShape) (hg : c.generateIn order raw = some g)
    (hg' : c.generateIn order' raw' = some g') :
    (∀ key, (g.data.get key).shape = polarisationCount :: c.rowShape c.nchan key) ∧
    (∀ pol, raw.AgreesIn pol raw' → ∀ key, key ≠ .spectrogram ∨ order = order' →
      (g.data.get key).AgreesIn pol (g'.data.get key)) ∧
    (∀ pol, ∀ channel < c.nchan,
      (∀ (component : Component) (sample : Nat),
        raw.get? [pol.index, component.index, channel, sample] =
          raw'.get? [pol.index, component.index, channel, sample]) →
        g.data.AgreesAt pol channel g'.data) ∧
    ∀ order' : PowerOrder, ∃ exchanged, c.generateIn order' raw.exchange = some exchanged ∧
      ∀ key, key ≠ .spectrogram ∨ order = order' →
        exchanged.data.get key = (g.data.get key).exchange := by
  obtain ⟨-, hdata⟩ := generateIn_of_shape hshape hg
  obtain ⟨-, hdata'⟩ := generateIn_of_shape hshape' hg'
  refine ⟨fun key => ?_, fun pol h key hkey => ?_, fun pol channel hchannel h => ?_,
    generateIn_exchange hshape hg⟩
  · rw [hdata]
    exact (StatArrays.shapeOf_map _ _ _ key).trans (c.shapeOf_arraysIn order raw _ _ key)
  · rw [hdata, hdata', StatArrays.get_map, StatArrays.get_map]
    exact StatArrays.agreesIn_mapElements _ _ (agreesIn_arraysIn hshape h hkey)
  · rw [hdata, hdata']
    exact (agreesAt_arraysIn order order' hshape hshape' hchannel h).map _ _

/-- Samples for three channels like `threeChannelSamples`, but with nothing in the second
polarisation. -/
def firstPolarisationSamples : Tensor Int :=
  .ofFn threeChannels.sampleShape fun position =>
    if position < 12 then (position * 85 % 256 : Nat) - 128 else 0

theorem takes_firstPolarisation : threeChannels.Takes firstPolarisationSamples where
  samples_lt := by decide
  nrebin_lt := by decide
  shape_eq := rfl
  inRange := by decide +kernel

theorem agreesIn_firstPolarisation :
    threeChannelSamples.AgreesIn .a firstPolarisationSamples where
  shape_eq := rfl
  get?_eq index := by
    rw [threeChannelSamples, firstPolarisationSamples, Tensor.get?_ofFn, Tensor.get?_ofFn]
    refine Option.map_congr fun position hposition => ?_
    have hlt : position < 12 := by
      obtain ⟨inner, hinner, rfl⟩ := Option.map_eq_some_iff.mp hposition
      have hvolume : inner < 12 := rowMajor?_lt hinner
      rwa [Polarisation.index, Nat.zero_mul, Nat.zero_add]
    rw [if_pos hlt]

/-- Taking away the samples of the second polarisation leaves all arrays of the first as they
were, but for the rounding of the spectrogram if the powers lie in another order then. -/
theorem polarisations_threeChannels :
    threeChannelSamples.shape = threeChannels.sampleShape ∧
      firstPolarisationSamples.shape = threeChannels.sampleShape ∧
      ∀ order order' : PowerOrder, ∃ g g',
        threeChannels.generateIn order threeChannelSamples = some g ∧
          threeChannels.generateIn order' firstPolarisationSamples = some g' ∧
          ∀ key, key ≠ .spectrogram ∨ order = order' →
            (g.data.get key).AgreesIn .a (g'.data.get key) := by
  refine ⟨rfl, rfl, fun order order' => ?_⟩
  obtain ⟨g, hg, -⟩ := takes_threeChannels.generateIn_eq order
  obtain ⟨g', hg', -⟩ := takes_firstPolarisation.generateIn_eq order'
  obtain ⟨-, hagrees, -⟩ := polarisations_separate rfl rfl hg hg'
  exact ⟨g, g', hg, hg', hagrees .a agreesIn_firstPolarisation⟩

/-! ## Orders of powers -/

/-- A configuration of one channel of nine samples, the sum of whose powers is next to the middle
between two numbers of single precision. -/
def nineSamples : Config where
  settings :=
    { Settings.default with
      nchan := 1, nsamp := 9, nbit := 8, nfreqBins := 1, ntimeBins := 1, nrebin := 4
      sigma := ⟨0x40080000097b425d⟩ }
  fault?_eq_none := by decide +kernel
  pairwise_rfiChannels := by decide

/-- Samples for it, all of them one. -/
def nineOnes : Tensor Int := .ofFn nineSamples.sampleShape fun _ => 1

theorem takes_nineOnes : nineSamples.Takes nineOnes where
  samples_lt := by decide
  nrebin_lt := by decide
  shape_eq := rfl
  inRange := by decide +kernel

/-- The sum of the powers of a polarisation goes to the one neighbour or to the other. -/
theorem spectrogram_nineOnes :
    ((nineSamples.generateIn .rowMajor nineOnes).bind fun g =>
        g.data.spectrogram.get? [0, 0, 0]) = some ⟨0x3c220000⟩ ∧
      ((nineSamples.generateIn .columnMajor nineOnes).bind fun g =>
        g.data.spectrogram.get? [0, 0, 0]) = some ⟨0x3c220001⟩ := by
  decide +kernel

/-- The same samples have different spectrograms if their powers lie in different orders. -/
theorem spectrograms_differ :
    ¬ ∀ (c : Config) (raw raw' : Tensor Int) (order order' : PowerOrder) (pol : Polarisation)
        (g g' : Generated), raw.shape = c.sampleShape → raw'.shape = c.sampleShape →
      c.generateIn order raw = some g → c.generateIn order' raw' = some g' →
        raw.AgreesIn pol raw' → ∀ key, (g.data.get key).AgreesIn pol (g'.data.get key) := by
  intro hagree
  obtain ⟨g, hg, -⟩ := takes_nineOnes.generateIn_eq .rowMajor
  obtain ⟨g', hg', -⟩ := takes_nineOnes.generateIn_eq .columnMajor
  obtain ⟨hrow, hcolumn⟩ := spectrogram_nineOnes
  rw [hg, Option.bind_some] at hrow
  rw [hg', Option.bind_some] at hcolumn
  have hsame : g.data.spectrogram.get? [0, 0, 0] = g'.data.spectrogram.get? [0, 0, 0] :=
    (hagree nineSamples nineOnes nineOnes .rowMajor .columnMajor .a g g' rfl rfl hg hg'
      ⟨rfl, fun _ => rfl⟩ .spectrogram).get?_eq [0, 0]
  rw [hrow, hcolumn] at hsame
  exact absurd hsame (by decide)

end Config

end VoltageStats
