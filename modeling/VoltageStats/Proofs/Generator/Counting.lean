import VoltageStats.Generator.Reduction
import VoltageStats.Proofs.Generator.Config
import VoltageStats.Proofs.Generator.Tally

/-!
# What the passes over the samples count

For each pass there is one lemma on a sample, one on a channel and one on all channels. In the end
the histograms are tallies of the samples that have been gone through (`Bins.ofSamples`), the
clipped samples are counted channel by channel (`getElem_clipped_ofChannels`), and of the pairs
those in flagged channels have been passed over (`PairCounts.ofChannels_eq`).
-/

namespace VoltageStats

variable {c : Config} {i : Nat}

namespace Bins

/-- The histograms of some samples. -/
def ofSamples (c : Config) (samples : List Int) : Bins c := samples.foldl add (zero c)

theorem foldl_add (bins : Bins c) (samples : List Int) :
    samples.foldl add bins =
      ⟨(samples.map c.bin).foldl increment bins.histogram,
        (samples.map c.rebin).foldl increment bins.rebinned⟩ := by
  induction samples generalizing bins with
  | nil => rfl
  | cons sample samples ih =>
      rw [List.foldl_cons, ih]
      rfl

theorem histogram_ofSamples (samples : List Int) :
    (ofSamples c samples).histogram = tally c.nbin (samples.map c.bin) := by
  rw [ofSamples, foldl_add]
  rfl

theorem rebinned_ofSamples (samples : List Int) :
    (ofSamples c samples).rebinned = tally c.nrebin (samples.map c.rebin) := by
  rw [ofSamples, foldl_add]
  rfl

end Bins

/-! ## One component -/

namespace SampleCounts

variable {channel : Nat}

theorem bins_foldl_add (counts : SampleCounts c) (samples : List Int) :
    (samples.foldl (add channel) counts).bins = samples.foldl Bins.add counts.bins := by
  induction samples generalizing counts with
  | nil => rfl
  | cons sample samples ih => exact ih (counts.add channel sample)

theorem getElem_clipped_add (counts : SampleCounts c) (sample : Int) (hi : i < c.nchan) :
    (counts.add channel sample).clipped[i] =
      counts.clipped[i] + if channel = i ∧ c.isClipped sample then 1 else 0 := by
  show (if c.isClipped sample then increment counts.clipped channel else counts.clipped)[i] = _
  by_cases hclipped : c.isClipped sample
  · simp only [hclipped, if_true, and_true, getElem_increment]
  · simp [hclipped]

/-- The samples of a channel are counted for this channel only. -/
theorem getElem_clipped_foldl_add (counts : SampleCounts c) (samples : List Int)
    (hi : i < c.nchan) :
    (samples.foldl (add channel) counts).clipped[i] =
      counts.clipped[i] + if channel = i then samples.countP c.isClipped else 0 := by
  induction samples generalizing counts with
  | nil => simp
  | cons sample samples ih =>
      rw [List.foldl_cons, ih, getElem_clipped_add, List.countP_cons]
      by_cases hchannel : channel = i
      · simp only [hchannel, true_and, if_true]
        omega
      · simp [hchannel]

theorem bins_addFrom (counts : SampleCounts c) (first : Nat) (channels : List (List Int)) :
    (counts.addFrom first channels).bins = channels.flatten.foldl Bins.add counts.bins := by
  induction channels generalizing counts first with
  | nil => rfl
  | cons samples channels ih =>
      rw [addFrom, ih, bins_foldl_add, List.flatten_cons, List.foldl_append]

/-- A channel that comes later does not add to the counts of those before it. -/
theorem getElem_clipped_addFrom (counts : SampleCounts c) (first : Nat)
    (channels : List (List Int)) (hi : i < c.nchan) :
    (counts.addFrom first channels).clipped[i] =
      counts.clipped[i] +
        if first ≤ i then ((channels[i - first]?).getD []).countP c.isClipped else 0 := by
  induction channels generalizing counts first with
  | nil => simp [addFrom]
  | cons samples channels ih =>
      rw [addFrom, ih, getElem_clipped_foldl_add]
      obtain hlt | rfl | hgt := Nat.lt_trichotomy first i
      · have hindex : i - first = i - (first + 1) + 1 := by omega
        rw [if_neg (Nat.ne_of_lt hlt), if_pos (Nat.succ_le_of_lt hlt),
          if_pos (Nat.le_of_lt hlt), hindex,
          List.getElem?_cons_succ, Nat.add_zero]
      · simp
      · rw [if_neg (Nat.ne_of_gt hgt), if_neg (by omega), if_neg (by omega)]

theorem bins_ofChannels (channels : List (List Int)) :
    (ofChannels c channels).bins = .ofSamples c channels.flatten :=
  bins_addFrom (zero c) 0 channels

theorem getElem_clipped_ofChannels (channels : List (List Int)) (hi : i < c.nchan) :
    (ofChannels c channels).clipped[i] = ((channels[i]?).getD []).countP c.isClipped := by
  rw [ofChannels, getElem_clipped_addFrom, zero, Vector.getElem_replicate, Nat.zero_add,
    if_pos (Nat.zero_le i), Nat.sub_zero]

end SampleCounts

/-! ## Both components -/

theorem getElem_foldl_setIfInBounds {n : Nat} (flags : Vector Bool n) (numbers : List Nat)
    (hi : i < n) :
    (numbers.foldl (fun flags number => flags.setIfInBounds number false) flags)[i] =
      (flags[i] && !numbers.contains i) := by
  induction numbers generalizing flags with
  | nil => simp
  | cons number numbers ih =>
      rw [List.foldl_cons, ih, Vector.getElem_setIfInBounds hi]
      by_cases hnumber : number = i
      · simp [hnumber]
      · simp [hnumber, Ne.symm hnumber]

/-- Every channel is marked as flagged or is one of those that are not. -/
theorem Config.getElem_flags (c : Config) (hi : i < c.nchan) :
    c.flags[i] = c.settings.rfiChannels.contains i := by
  rw [flags, getElem_foldl_setIfInBounds, Vector.getElem_replicate, Bool.true_and, Bool.eq_iff_iff]
  simp [mem_nonRfiChannels, hi]

namespace PairCounts

variable {flags : Vector Bool c.nchan} {pairs : Nat → List (Int × Int)}

/-- In a flagged channel the pairs are counted once. -/
theorem foldl_add_flagged (counts : PairCounts c) (samples : List (Int × Int)) :
    samples.foldl (add true) counts =
      { counts with
        joint := (samples.map fun pair => c.jointBin pair.1 pair.2).foldl increment
          counts.joint } := by
  induction samples generalizing counts with
  | nil => rfl
  | cons pair samples ih =>
      rw [List.foldl_cons, ih]
      rfl

/-- In any other channel they are counted twice, and each component by itself. -/
theorem foldl_add_kept (counts : PairCounts c) (samples : List (Int × Int)) :
    samples.foldl (add false) counts =
      ⟨(samples.map fun pair => c.jointBin pair.1 pair.2).foldl increment counts.joint,
        (samples.map fun pair => c.jointBin pair.1 pair.2).foldl increment counts.jointKept,
        (samples.map Prod.fst).foldl Bins.add counts.realKept,
        (samples.map Prod.snd).foldl Bins.add counts.imagKept⟩ := by
  induction samples generalizing counts with
  | nil => rfl
  | cons pair samples ih =>
      rw [List.foldl_cons, ih]
      rfl

/-- Of the counts without interference a flagged channel is passed over. -/
theorem addChannels_eq (counts : PairCounts c) (channels : List Nat) {kept : List Nat}
    (hkept : channels.filter (fun channel => !(flags[channel]?).getD true) = kept) :
    addChannels flags pairs counts channels =
      ⟨((channels.flatMap pairs).map fun pair => c.jointBin pair.1 pair.2).foldl increment
          counts.joint,
        ((kept.flatMap pairs).map fun pair => c.jointBin pair.1 pair.2).foldl increment
          counts.jointKept,
        ((kept.flatMap pairs).map Prod.fst).foldl Bins.add counts.realKept,
        ((kept.flatMap pairs).map Prod.snd).foldl Bins.add counts.imagKept⟩ := by
  subst hkept
  induction channels generalizing counts with
  | nil => rfl
  | cons channel channels ih =>
      rw [addChannels, ih]
      cases hflag : (flags[channel]?).getD true with
      | true =>
          rw [foldl_add_flagged, List.filter_cons_of_neg (by simp [hflag])]
          simp only [List.flatMap_cons, List.map_append, List.foldl_append]
      | false =>
          rw [foldl_add_kept, List.filter_cons_of_pos (by simp [hflag])]
          simp only [List.flatMap_cons, List.map_append, List.foldl_append]

/-- What the second pass counts: the pairs of all channels, and those of the channels that are not
flagged. -/
theorem ofChannels_eq (c : Config) (pairs : Nat → List (Int × Int)) :
    ofChannels c pairs =
      ⟨tally _ (((List.range c.nchan).flatMap pairs).map fun pair => c.jointBin pair.1 pair.2),
        tally _ ((c.nonRfiChannels.flatMap pairs).map fun pair => c.jointBin pair.1 pair.2),
        .ofSamples c ((c.nonRfiChannels.flatMap pairs).map Prod.fst),
        .ofSamples c ((c.nonRfiChannels.flatMap pairs).map Prod.snd)⟩ := by
  have hkept : (List.range c.nchan).filter (fun channel => !(c.flags[channel]?).getD true) =
      c.nonRfiChannels := by
    refine List.filter_congr fun channel hmem => ?_
    have hlt : channel < c.nchan := List.mem_range.mp hmem
    rw [Vector.getElem?_eq_getElem hlt, Option.getD_some, Config.getElem_flags c hlt]
  exact addChannels_eq (zero c) (List.range c.nchan) hkept

end PairCounts

/-! ## One polarisation -/

section

variable {R : Type}

/-- All samples of some channels. -/
def samplesIn (channels : List (Channel R)) (component : Component) : List Int :=
  channels.flatMap fun channel => channel.samples.get component

/-- The samples of both components of some channels. -/
def pairsIn (channels : List (Channel R)) : List (Int × Int) :=
  channels.flatMap fun channel => channel.samples.real.zip channel.samples.imag

namespace Config

/-- How often each pair of rebinned values of both components occurs in some channels. -/
def jointOf (c : Config) (channels : List (Channel R)) : Vector Nat (volume [c.nrebin, c.nrebin]) :=
  tally _ ((pairsIn channels).map fun pair => c.jointBin pair.1 pair.2)

theorem samples_countsOf {count : Nat} (band : Vector (Channel R) count) (component : Component) :
    (c.countsOf band).samples component =
      .ofChannels c (band.toList.map fun channel => channel.samples.get component) := by
  cases component <;> rfl

/-- The histograms for all channels are those of all samples. -/
theorem bins_countsOf {count : Nat} (band : Vector (Channel R) count) (component : Component) :
    ((c.countsOf band).samples component).bins =
      .ofSamples c (samplesIn band.toList component) := by
  rw [samples_countsOf, SampleCounts.bins_ofChannels, samplesIn, List.flatMap_def]

/-- The clipped samples of a channel. -/
theorem getElem_clipped_countsOf {count i : Nat} (band : Vector (Channel R) count)
    (component : Component) (hi : i < c.nchan) :
    ((c.countsOf band).samples component).clipped[i] =
      ((channelAt band i).samples.get component).countP c.isClipped := by
  simp only [samples_countsOf, SampleCounts.getElem_clipped_ofChannels _ hi, List.getElem?_map,
    Vector.getElem?_toList, channelAt]
  cases band[i]? with
  | none => cases component <;> rfl
  | some channel => rfl

/-- The clipped samples of some channels are those among their samples. -/
theorem clippedIn_countsOf {count : Nat} (band : Vector (Channel R) count) (component : Component)
    {numbers : List Nat} (hlt : ∀ i ∈ numbers, i < c.nchan) :
    ((c.countsOf band).samples component).clippedIn numbers =
      (samplesIn (numbers.map (channelAt band)) component).countP c.isClipped := by
  rw [SampleCounts.clippedIn, ← List.sum_eq_foldl, samplesIn, List.flatMap_map,
    List.countP_flatMap]
  refine congrArg List.sum (List.map_congr_left fun i hmem => ?_)
  rw [Vector.getElem?_eq_getElem (hlt i hmem), Option.getD_some, getElem_clipped_countsOf]
  rfl

/-- To add up the clipped samples of all channels is to add up those of the channels with all
numbers. -/
theorem clippedTotal_eq (counts : SampleCounts c) :
    counts.clippedTotal = counts.clippedIn (List.range c.nchan) := by
  have hlist : (List.range c.nchan).map (fun i => (counts.clipped[i]?).getD 0) =
      counts.clipped.toList := by
    refine List.ext_getElem (by simp) fun i hi _ => ?_
    have hlt : i < c.nchan := by simpa using hi
    simp [hlt]
  rw [SampleCounts.clippedTotal, SampleCounts.clippedIn, hlist, Vector.foldl_toList]

/-- The pairs of the samples that are taken of some channels of a band. -/
theorem pairsIn_take {count : Nat} (band : Vector (Channel R) count) (numbers : List Nat) :
    pairsIn ((numbers.map (channelAt band)).map (Channel.take c.samplesPerChannel)) =
      numbers.flatMap fun i =>
        let samples := (channelAt band i).samples.take c.samplesPerChannel
        samples.real.zip samples.imag := by
  rw [pairsIn, List.flatMap_map, List.flatMap_map]
  rfl

theorem pairs_countsOf {count : Nat} (band : Vector (Channel R) count) :
    (c.countsOf band).pairs =
      { joint := jointOf c (((List.range c.nchan).map (channelAt band)).map
          (Channel.take c.samplesPerChannel))
        jointKept := jointOf c ((c.nonRfiChannels.map (channelAt band)).map
          (Channel.take c.samplesPerChannel))
        realKept := .ofSamples c ((pairsIn ((c.nonRfiChannels.map (channelAt band)).map
          (Channel.take c.samplesPerChannel))).map Prod.fst)
        imagKept := .ofSamples c ((pairsIn ((c.nonRfiChannels.map (channelAt band)).map
          (Channel.take c.samplesPerChannel))).map Prod.snd) } := by
  simp only [jointOf, pairsIn_take]
  exact PairCounts.ofChannels_eq c _

end Config

end

end VoltageStats
