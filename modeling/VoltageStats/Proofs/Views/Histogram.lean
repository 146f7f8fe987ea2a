import VoltageStats.Proofs.Generator.Consistent
import VoltageStats.Proofs.Generator.Counts
import VoltageStats.Proofs.Views.Enumeration

/-!
# The histogram view counts samples

The origin of the histogram's bins comes twice: from the range of the raw values when samples are
counted, and from the number of bins when the counts are shown. Both are the same
(`Config.clipLow_headerFor`), so each row shows a raw value with the number of its samples
(`Config.histogram_counts_samples`), also after the statistics have been written and read.
-/

namespace VoltageStats

open Finset (range)

/-- The rows of a polarisation, a component and a variant. -/
def rowsAt (rows : List HistogramRow) (pol : Polarisation) (dim : Component) (flag : Bool) :
    List HistogramRow :=
  rows.filter fun row => row.pol = pol ∧ row.dim = dim ∧ row.rfiExcised = flag

namespace Config

variable {c : Config} {raw : Tensor Int} {g : Generated} {pol : Polarisation} {dim : Component}

/-- The channels and samples where a raw value occurs, among all channels or only among those that
are not flagged. -/
def occurrences (c : Config) (raw : Tensor Int) (pol : Polarisation) (dim : Component)
    (flag : Bool) (v : Int) : Finset (Nat × Nat) :=
  {place ∈ range c.nchan ×ˢ range (c.settings.nheap.toNat * c.settings.nsamp.toNat) |
    raw.get? [pol.index, dim.index, place.1, place.2] = some v ∧
      (flag = true → place.1 ∈ c.nonRfiChannels)}

/-! ## Raw values -/

/-- The header puts the first bin of the histograms at the least raw value. -/
theorem clipLow_headerFor (c : Config) (ids : ScanIdentifiers) (g : Generated) :
    (c.headerFor ids g).clipLow = c.clipLow := by
  show -(((UInt32.ofNat c.nbin).toNat / 2 : Nat) : Int) = c.clipLow
  rw [toNat_nbin, nbin_eq, Nat.mul_div_cancel_left _ Nat.two_pos, clipLow]

/-- The raw values are those from the least to the largest. -/
theorem mem_values_iff {v : Int} :
    v ∈ (List.range c.nbin).map (fun i : Nat => c.clipLow + i) ↔
      c.clipLow ≤ v ∧ v ≤ c.clipHigh := by
  have hnbin := c.nbin_eq
  simp only [List.mem_map, List.mem_range, clipLow, clipHigh]
  constructor
  · intro hvalue
    obtain ⟨i, hi, rfl⟩ := hvalue
    omega
  · intro hrange
    obtain ⟨hlow, hhigh⟩ := hrange
    exact ⟨(v + c.nbitLimit).toNat, by omega, by omega⟩

theorem pairwise_values (c : Config) :
    ((List.range c.nbin).map fun i : Nat => c.clipLow + i).Pairwise (· < ·) := by
  rw [List.pairwise_map]
  exact List.pairwise_lt_range.imp fun hlt => by omega

/-! ## Samples -/

/-- The channels that are counted. -/
def counted (c : Config) (flag : Bool) : List Nat :=
  if flag then c.nonRfiChannels else List.range c.nchan

theorem counted_sublist (c : Config) (flag : Bool) :
    (c.counted flag).Sublist (List.range c.nchan) := by
  cases flag with
  | false => exact List.Sublist.refl _
  | true => exact List.filter_sublist

theorem valuesOf_eq_map (c : Config) (raw : Tensor Int) (pol : Polarisation) (dim : Component)
    (numbers : List Nat) : c.valuesOf raw pol numbers dim =
      (numbers ×ˢ List.range c.samplesPerChannel).map fun place =>
        raw.sampleAt pol dim place.1 place.2 := by
  simp [valuesOf, SProd.sprod, List.product, List.map_flatMap, Function.comp_def]

theorem Takes.get?_sample_iff (h : c.Takes raw) {channel sample : Nat} {v : Int}
    (hchannel : channel < c.nchan) (hsample : sample < c.samplesPerChannel) :
    raw.get? [pol.index, dim.index, channel, sample] = some v ↔
      raw.sampleAt pol dim channel sample = v := by
  have hlt : List.Forall₂ (· < ·) [pol.index, dim.index, channel, sample] c.sampleShape :=
    .cons pol.index_lt (.cons dim.index_lt (.cons hchannel (.cons hsample .nil)))
  obtain ⟨cell, hcell⟩ := Tensor.exists_get? h.shape_eq hlt
  rw [Tensor.sampleAt, hcell, Option.getD_some, Option.some.injEq]

/-- Each occurrence of a raw value is counted. -/
theorem card_occurrences (h : c.Takes raw) (pol : Polarisation) (dim : Component) (flag : Bool)
    (v : Int) : (c.occurrences raw pol dim flag v).card =
      (c.valuesOf raw pol (c.counted flag) dim).countP (· = v) := by
  have hnodup : (c.counted flag ×ˢ List.range c.samplesPerChannel).Nodup :=
    ((c.counted_sublist flag).nodup List.nodup_range).product List.nodup_range
  rw [valuesOf_eq_map, List.countP_map, List.countP_eq_length_filter,
    ← List.toFinset_card_of_nodup (hnodup.filter _)]
  congr 1
  ext ⟨i, s⟩
  have hcounted : i ∈ c.counted flag ↔ i < c.nchan ∧ (flag = true → i ∈ c.nonRfiChannels) := by
    cases flag with
    | false => simp [counted]
    | true => simpa [counted] using lt_of_mem_nonRfiChannels
  simp only [occurrences, Finset.mem_filter, Finset.mem_product, Finset.mem_range,
    List.mem_toFinset, List.mem_filter, List.mem_product, List.mem_range, Function.comp_apply,
    decide_eq_true_eq, hcounted]
  constructor
  · intro hplace
    obtain ⟨⟨hi, hs⟩, hget, hkept⟩ := hplace
    exact ⟨⟨⟨hi, hkept⟩, hs⟩, (h.get?_sample_iff hi hs).mp hget⟩
  · intro hplace
    obtain ⟨⟨⟨hi, hkept⟩, hs⟩, hsample⟩ := hplace
    exact ⟨⟨hi, hs⟩, (h.get?_sample_iff hi hs).mpr hsample, hkept⟩

/-- A histogram counts the occurrences of each raw value. -/
theorem Takes.toNat_count (h : c.Takes raw) {flag : Bool} {i : Nat} {count : UInt32}
    (hget : (c.keptArrays raw (c.counted flag)).histogram.get? [pol.index, dim.index, i] =
      some count) :
    count.toNat = (c.occurrences raw pol dim flag (c.clipLow + i)).card := by
  have hcount := h.countAt_histogram (c.counted_sublist flag) pol dim i
  rw [Tensor.countAt, hget, Option.map_some, Option.getD_some] at hcount
  rw [hcount, card_occurrences h]
  refine List.countP_congr fun v hmem => ?_
  have hrange := h.valuesOf_inRange (c.counted_sublist flag) v hmem
  have hbin := clipLow_add_bin hrange.1
  simp only [decide_eq_true_eq]
  omega

end Config

/-! ## Rows -/

namespace Statistics

variable {s : Statistics}

/-- The rows of a polarisation, a component and a variant show the bins in order. -/
theorem exists_histogram (h : s.Consistent) :
    ∃ rows, s.histogram .all = some rows ∧ ∀ pol dim flag,
      List.Forall₂ (fun i row => s.ShowsHistogram ((pol, dim, flag), i) row)
        (List.range s.metadata.histogramNbin.toNat) (rowsAt rows pol dim flag) := by
  obtain ⟨rows, hrows, hshows, -⟩ := enumerates_histogram h
  refine ⟨rows, hrows, fun pol dim flag => ?_⟩
  refine forall₂_filter_place (p := fun place => place = (pol, dim, flag)) hshows ?_ ?_
  · cases pol <;> cases dim <;> cases flag <;> rfl
  · intro place bin row hrow
    obtain rfl : (row.pol, row.dim, row.rfiExcised) = place := hrow.place_eq
    simp only [Prod.mk.injEq]

end Statistics

namespace Config

variable {c : Config} {raw : Tensor Int}

/-- Generated statistics pass the checks. -/
theorem Takes.consistent_statisticsOf (h : c.Takes raw) {g : Generated}
    (hg : c.generate raw = some g) (ids : ScanIdentifiers) : (c.statisticsOf ids g).Consistent where
  header := Metadata.validate_eq_ok_iff.mp (validate_headerFor hg ids)
  shapes := StatArrays.validate_eq_ok_iff.mp (h.validate_data hg ids)

/-- The rows of generated statistics show the raw values in order, each with its occurrences. -/
theorem Takes.exists_rows (h : c.Takes raw) (ids : ScanIdentifiers) :
    ∃ g rows, c.generate raw = some g ∧ (c.statisticsOf ids g).histogram .all = some rows ∧
      ∀ pol dim flag, List.Forall₂
        (fun (i : Nat) row => row.value = c.clipLow + i ∧
          row.count.toNat = (c.occurrences raw pol dim flag row.value).card)
        (List.range c.nbin) (rowsAt rows pol dim flag) := by
  obtain ⟨g, hg, hwhole, hexcised, -⟩ := h.generate_counts
  obtain ⟨rows, hrows, hshows⟩ := Statistics.exists_histogram (h.consistent_statisticsOf hg ids)
  refine ⟨g, rows, hg, hrows, fun pol dim flag => ?_⟩
  have hvariant : g.data.variant flag = c.keptArrays raw (c.counted flag) := by
    cases flag with
    | false => exact hwhole
    | true => exact hexcised
  have hlist := hshows pol dim flag
  rw [statisticsOf, headerFor, toNat_nbin] at hlist
  refine hlist.imp fun i row hrow => ?_
  obtain ⟨rfl, rfl, rfl⟩ : row.pol = pol ∧ row.dim = dim ∧ row.rfiExcised = flag := by
    simpa using hrow.place_eq
  have hvalue : row.value = c.clipLow + i := by
    rw [hrow.value, ← clipLow_headerFor c ids g]
    rfl
  refine ⟨hvalue, ?_⟩
  rw [hvalue]
  exact h.toNat_count (hvariant ▸ hrow.count)

/-- The histogram view of generated statistics tells how often each raw value was sampled. For each
polarisation, component and variant there is one row for each raw value, in order, and the row
counts the channels and samples where the value occurs. The rows are the same after the statistics
have been written to a file and read from it. -/
theorem histogram_counts_samples (h : c.Takes raw) (ids : ScanIdentifiers) :
    ∃ g rows, c.generate raw = some g ∧ (c.statisticsOf ids g).histogram .all = some rows ∧
      (∀ pol dim flag,
        ((rowsAt rows pol dim flag).map (·.value)).Pairwise (· < ·) ∧
        (∀ v, v ∈ (rowsAt rows pol dim flag).map (·.value) ↔ c.clipLow ≤ v ∧ v ≤ c.clipHigh) ∧
        ∀ row ∈ rowsAt rows pol dim flag,
          row.count.toNat = (c.occurrences raw pol dim flag row.value).card) ∧
      ∀ (tree tree' : FileTree) (path : String),
        tree.write path (c.headerFor ids g) g.data = (tree', .ok ()) →
          ∃ s, tree'.read path = .ok s ∧ s.histogram .all = some rows := by
  obtain ⟨g, rows, hg, hrows, hcounts⟩ := h.exists_rows ids
  refine ⟨g, rows, hg, hrows, fun pol dim flag => ?_, fun tree tree' path hwrite => ?_⟩
  · have hvalues : (List.range c.nbin).map (fun i : Nat => c.clipLow + i) =
        (rowsAt rows pol dim flag).map (·.value) := by
      rw [← List.forall₂_eq_eq_eq, List.forall₂_map_left_iff, List.forall₂_map_right_iff]
      exact (hcounts pol dim flag).imp fun i row hrow => hrow.1.symm
    rw [← hvalues]
    refine ⟨c.pairwise_values, fun v => mem_values_iff, fun row hmem => ?_⟩
    obtain ⟨i, -, hrow⟩ := exists_of_mem_forall₂ (hcounts pol dim flag) hmem
    exact hrow.2
  · exact ⟨_, FileTree.read_of_write hwrite, hrows⟩

/-- The value 42 is sampled once, in the flagged one of three channels. -/
theorem histogram_threeChannels :
    threeChannels.Takes threeChannelSamples ∧
      ∃ g rows, threeChannels.generate threeChannelSamples = some g ∧
        (threeChannels.statisticsOf .default g).histogram .all = some rows ∧
        (∃ row ∈ rowsAt rows .a .real false, row.value = 42 ∧ row.count.toNat = 1) ∧
        ∃ row ∈ rowsAt rows .a .real true, row.value = 42 ∧ row.count.toNat = 0 := by
  obtain ⟨g, rows, hg, hrows, hcounts, -⟩ :=
    histogram_counts_samples takes_threeChannels .default
  have hrange : threeChannels.clipLow ≤ 42 ∧ 42 ≤ threeChannels.clipHigh := by decide
  have hrow : ∀ flag, ∃ row ∈ rowsAt rows .a .real flag, row.value = 42 ∧ row.count.toNat =
      (threeChannels.occurrences threeChannelSamples .a .real flag 42).card := by
    intro flag
    obtain ⟨-, hvalues, hcount⟩ := hcounts .a .real flag
    obtain ⟨row, hmem, hvalue⟩ := List.mem_map.mp ((hvalues 42).mpr hrange)
    have hcard := hcount row hmem
    rw [hvalue] at hcard
    exact ⟨row, hmem, hvalue, hcard⟩
  have hall : (threeChannels.occurrences threeChannelSamples .a .real false 42).card = 1 := by
    decide +kernel
  have hkept : (threeChannels.occurrences threeChannelSamples .a .real true 42).card = 0 := by
    decide +kernel
  exact ⟨takes_threeChannels, g, rows, hg, hrows, hall ▸ hrow false, hkept ▸ hrow true⟩

end Config

end VoltageStats
