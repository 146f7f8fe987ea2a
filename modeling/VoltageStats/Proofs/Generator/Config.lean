import VoltageStats.Generator.Config
import VoltageStats.Proofs.Generator.BinCount

/-!
# What configurations promise

Settings that pass every check (`Settings.Accepted`) have two polarisations and two components, at
least one of everything that is counted, and no flagged channel beyond the last. So in a
configuration no count is zero, the flagged channels and the others share the channels among them,
and the bins of raw values run from one end of the range to the other.
-/

namespace VoltageStats

/-- The last channel of a band has a number exactly when that number fits a word. -/
theorem isSome_checkedEndChan {startChan nchan : UInt32} :
    (checkedEndChan startChan nchan).isSome ↔
      startChan.toNat + (nchan.toNat - 1) < UInt32.size := by
  rw [checkedEndChan]
  split <;> simp [*]

namespace Settings

/-- What the checks ask of settings. -/
structure Accepted (s : Settings) : Prop where
  nbit_eq : s.nbit = 8 ∨ s.nbit = 16
  axis_eq : ∀ axis ∈ s.axisLengths, axis.2.1 = axis.2.2.toNat
  count_ne : ∀ count ∈ s.counts, count.2 ≠ 0
  isPositive : ∀ quantity ∈ s.quantities, quantity.2.isPositive
  endChan_lt : s.startChan.toNat + (s.nchan.toNat - 1) < UInt32.size
  flagged_lt : ∀ channel ∈ s.rfiChannels, channel < s.nchan.toNat

/-- Settings have no fault exactly when they are accepted. -/
theorem fault?_eq_none_iff {s : Settings} : s.fault? = none ↔ s.Accepted := by
  -- The checks come one after the other; a case that fails one of them is settled there.
  unfold fault?
  by_cases hbit : s.nbit ≠ 8 ∧ s.nbit ≠ 16
  · rw [if_pos hbit]
    exact iff_of_false (Option.some_ne_none _) fun h => not_or.mpr hbit h.nbit_eq
  rw [if_neg hbit]
  cases haxis : s.axisLengths.find? fun axis => axis.2.1 ≠ axis.2.2.toNat with
  | some axis =>
      have hne := List.find?_some haxis
      have heq := fun h : s.Accepted => h.axis_eq axis (List.mem_of_find?_eq_some haxis)
      exact iff_of_false (Option.some_ne_none _) fun h => absurd (heq h) (by simpa using hne)
  | none =>
  cases hcount : s.counts.find? fun count => count.2 = 0 with
  | some count =>
      have hzero := List.find?_some hcount
      have hne := fun h : s.Accepted => h.count_ne count (List.mem_of_find?_eq_some hcount)
      exact iff_of_false (Option.some_ne_none _) fun h => absurd (by simpa using hzero) (hne h)
  | none =>
  cases hquantity : s.quantities.find? fun quantity => !quantity.2.isPositive with
  | some quantity =>
      have hnot := List.find?_some hquantity
      have hpos := fun h : s.Accepted =>
        h.isPositive quantity (List.mem_of_find?_eq_some hquantity)
      exact iff_of_false (Option.some_ne_none _) fun h => by simp [hpos h] at hnot
  | none =>
  by_cases hend : (checkedEndChan s.startChan s.nchan).isSome
  · have hsome : ¬ (checkedEndChan s.startChan s.nchan).isNone := by
      simpa [Option.isSome_iff_ne_none] using hend
    simp only [List.find?_eq_none] at haxis hcount hquantity
    simp only [if_neg hsome, Option.map_eq_none_iff, List.find?_eq_none, decide_eq_true_eq,
      Nat.not_le]
    constructor
    · intro hflagged
      exact ⟨by simpa [Decidable.or_iff_not_not_and_not] using hbit, by simpa using haxis,
        by simpa using hcount, by simpa using hquantity, isSome_checkedEndChan.mp hend, hflagged⟩
    · exact fun h => h.flagged_lt
  · have hnone : (checkedEndChan s.startChan s.nchan).isNone := by simpa using hend
    simp only [if_pos hnone]
    exact iff_of_false (Option.some_ne_none _) fun h =>
      hend (isSome_checkedEndChan.mpr h.endChan_lt)

end Settings

/-- A configuration is made from the settings it holds, with the flagged channels in order. -/
theorem Config.ofSettings_eq_ok_iff {s : Settings} {c : Config} :
    Config.ofSettings s = .ok c ↔
      c.settings = { s with rfiChannels := ascending s.rfiChannels } := by
  unfold Config.ofSettings
  dsimp only
  split
  next error hfault =>
    constructor
    · intro h
      cases h
    · intro h
      have hnone := c.fault?_eq_none
      rw [h, hfault] at hnone
      cases hnone
  next hfault =>
    constructor
    · intro h
      obtain rfl := Except.ok.inj h
      rfl
    · intro h
      obtain ⟨settings, _, _⟩ := c
      subst h
      rfl

namespace Config

variable {c : Config} {sample : Int}

theorem accepted (c : Config) : c.settings.Accepted :=
  Settings.fault?_eq_none_iff.mp c.fault?_eq_none

/-! ## Counts -/

theorem toNat_npol (c : Config) : c.settings.npol.toNat = polarisationCount :=
  (c.accepted.axis_eq ("npol", polarisationCount, c.settings.npol)
    (by simp [Settings.axisLengths])).symm

theorem toNat_ndim (c : Config) : c.settings.ndim.toNat = componentCount :=
  (c.accepted.axis_eq ("ndim", componentCount, c.settings.ndim)
    (by simp [Settings.axisLengths])).symm

theorem count_pos (c : Config) (name : String) (count : UInt32)
    (hmem : (name, count) ∈ c.settings.counts) : 0 < count.toNat := by
  have hne : count ≠ 0 := c.accepted.count_ne _ hmem
  exact Nat.pos_of_ne_zero fun h => hne (UInt32.toNat_inj.mp h)

theorem nchan_pos (c : Config) : 0 < c.nchan :=
  c.count_pos "nchan" _ (by simp [Settings.counts])

theorem nrebin_pos (c : Config) : 0 < c.nrebin :=
  c.count_pos "nrebin" _ (by simp [Settings.counts])

theorem samplesPerChannel_pos (c : Config) : 0 < c.samplesPerChannel :=
  Nat.mul_pos (c.count_pos "nheap" _ (by simp [Settings.counts]))
    (c.count_pos "nsamp" _ (by simp [Settings.counts]))

/-- A bin count fits the word that it is kept in if the number of items does. -/
theorem toNat_binCount {items : Nat} (hpos : 0 < items) (hlt : items < 2 ^ 32) (requested : Nat) :
    (UInt32.ofNat (binCount items requested)).toNat = binCount items requested :=
  UInt32.toNat_ofNat_of_lt' (Nat.lt_of_le_of_lt (binCount_le hpos) hlt)

theorem nfreqBins_pos (c : Config) : 0 < c.nfreqBins.toNat := by
  rw [nfreqBins, toNat_binCount c.nchan_pos c.settings.nchan.toNat_lt]
  exact binCount_pos c.nchan_pos

theorem nfreqBins_le (c : Config) : c.nfreqBins.toNat ≤ c.nchan := by
  rw [nfreqBins, toNat_binCount c.nchan_pos c.settings.nchan.toNat_lt]
  exact binCount_le c.nchan_pos

theorem ntimeBins_pos (hsamples : c.samplesPerChannel < 2 ^ 32) : 0 < c.ntimeBins.toNat := by
  rw [ntimeBins, toNat_binCount c.samplesPerChannel_pos hsamples]
  exact binCount_pos c.samplesPerChannel_pos

theorem ntimeBins_le (hsamples : c.samplesPerChannel < 2 ^ 32) :
    c.ntimeBins.toNat ≤ c.samplesPerChannel := by
  rw [ntimeBins, toNat_binCount c.samplesPerChannel_pos hsamples]
  exact binCount_le c.samplesPerChannel_pos

/-- There is a temporal bin, unless there are too many samples. -/
theorem ntimeBins_ne_zero (hsamples : c.samplesPerChannel < 2 ^ 32) : c.ntimeBins ≠ 0 := by
  have hpos := ntimeBins_pos hsamples
  intro hzero
  rw [hzero] at hpos
  exact Nat.lt_irrefl 0 hpos

/-! ## Raw values and their bins -/

theorem nbin_eq (c : Config) : c.nbin = 2 * c.nbitLimit := by
  rcases c.accepted.nbit_eq with h | h <;> rw [nbin, nbitLimit, h] <;> rfl

theorem nbitLimit_pos (c : Config) : 0 < c.nbitLimit := Nat.two_pow_pos _

theorem nbitLimit_le (c : Config) : c.nbitLimit ≤ 2 ^ 15 := by
  rcases c.accepted.nbit_eq with h | h <;> rw [nbitLimit, h] <;> decide

theorem nbin_le (c : Config) : c.nbin ≤ 2 ^ 16 := by
  have hle := c.nbitLimit_le
  rw [nbin_eq]
  omega

/-- The number of raw values fits the word that it is kept in. -/
theorem toNat_nbin (c : Config) : (UInt32.ofNat c.nbin).toNat = c.nbin :=
  UInt32.toNat_ofNat_of_lt' (Nat.lt_of_le_of_lt c.nbin_le (by decide))

/-- A raw value is the least one and the number of its bin. -/
theorem clipLow_add_bin (hlow : c.clipLow ≤ sample) : c.clipLow + c.bin sample = sample := by
  unfold bin
  omega

theorem bin_lt (hlow : c.clipLow ≤ sample) (hhigh : sample ≤ c.clipHigh) :
    c.bin sample < c.nbin := by
  have hbin := clipLow_add_bin hlow
  unfold clipHigh at hhigh
  unfold clipLow at hbin
  rw [nbin_eq]
  omega

/-- Raw values at the ends of the range are those in the first and the last bin. -/
theorem isClipped_iff (hlow : c.clipLow ≤ sample) (hhigh : sample ≤ c.clipHigh) :
    c.isClipped sample ↔ c.bin sample = 0 ∨ c.bin sample = c.nbin - 1 := by
  have hbin := clipLow_add_bin hlow
  rw [isClipped, Bool.or_eq_true, decide_eq_true_eq, decide_eq_true_eq]
  unfold clipHigh at hhigh ⊢
  unfold clipLow at hbin hlow ⊢
  rw [nbin_eq]
  omega

theorem rebinMax_eq (hrebin : c.nrebin < 2 ^ 31) : c.rebinMax = c.nrebin - 1 := by
  have hpos := c.nrebin_pos
  rw [rebinMax, Int.bmod_eq_of_le] <;> omega

theorem rebin_lt (hrebin : c.nrebin < 2 ^ 31) (sample : Int) : c.rebin sample < c.nrebin := by
  have hpos := c.nrebin_pos
  rw [rebin, rebinMax_eq hrebin]
  omega

/-! ## Flagged channels -/

theorem pairwise_default : Settings.default.rfiChannels.Pairwise (· < ·) := List.Pairwise.nil

theorem nodup_rfiChannels (c : Config) : c.settings.rfiChannels.Nodup :=
  c.pairwise_rfiChannels.imp Nat.ne_of_lt

theorem mem_nonRfiChannels {channel : Nat} :
    channel ∈ c.nonRfiChannels ↔ channel < c.nchan ∧ channel ∉ c.settings.rfiChannels := by
  simp [nonRfiChannels]

theorem lt_of_mem_nonRfiChannels {channel : Nat} (hmem : channel ∈ c.nonRfiChannels) :
    channel < c.nchan := (mem_nonRfiChannels.mp hmem).1

/-- Every channel is flagged or not. -/
theorem length_nonRfiChannels (c : Config) :
    c.nonRfiChannels.length = c.nchan - c.settings.rfiChannels.length := by
  -- The flagged channels are in order and each of them is a channel, so they are what is left out.
  have hperm : ((List.range c.nchan).filter c.settings.rfiChannels.contains).Perm
      c.settings.rfiChannels := by
    rw [List.perm_ext_iff_of_nodup (List.nodup_range.filter _) c.nodup_rfiChannels]
    intro channel
    have hflagged : channel ∈ c.settings.rfiChannels → channel < c.nchan :=
      c.accepted.flagged_lt channel
    simpa using hflagged
  have hsplit : (List.range c.nchan).length =
      ((List.range c.nchan).filter c.settings.rfiChannels.contains).length +
        c.nonRfiChannels.length := by
    rw [List.length_eq_countP_add_countP c.settings.rfiChannels.contains,
      List.countP_eq_length_filter, List.countP_eq_length_filter]
    simp [nonRfiChannels]
  rw [hperm.length_eq, List.length_range] at hsplit
  omega

theorem nonRfiChannels_of_nil (hnil : c.settings.rfiChannels = []) :
    c.nonRfiChannels = List.range c.nchan := by
  simp [nonRfiChannels, hnil]

theorem length_nonRfiChannels_le (c : Config) :
    c.nonRfiChannels.length ≤ c.settings.nchan.toNat := by
  rw [length_nonRfiChannels]
  exact Nat.sub_le _ _

/-- The number of channels that are not flagged fits the word that it is kept in. -/
theorem toNat_length_nonRfiChannels (c : Config) :
    (UInt32.ofNat c.nonRfiChannels.length).toNat = c.nonRfiChannels.length := by
  exact UInt32.toNat_ofNat_of_lt'
    (Nat.lt_of_le_of_lt c.length_nonRfiChannels_le c.settings.nchan.toNat_lt)

/-- The settings without the flagged channels. -/
def excisedSettings (c : Config) : Settings :=
  { c.settings with nchan := UInt32.ofNat c.nonRfiChannels.length, rfiChannels := [] }

/-- Settings stay accepted without the flagged channels, if some channel is not flagged. -/
theorem accepted_excisedSettings (hkept : c.nonRfiChannels ≠ []) : c.excisedSettings.Accepted := by
  have h := c.accepted
  have hnchan := c.toNat_length_nonRfiChannels
  refine ⟨h.nbit_eq, h.axis_eq, ?_, h.isPositive, ?_, ?_⟩
  · have hne : UInt32.ofNat c.nonRfiChannels.length ≠ 0 := by
      intro hzero
      rw [hzero] at hnchan
      exact hkept (List.length_eq_zero_iff.mp hnchan.symm)
    have hcounts := h.count_ne
    simp only [excisedSettings, Settings.counts, List.forall_mem_cons] at hcounts ⊢
    exact ⟨hne, hcounts.2⟩
  · have hlt := h.endChan_lt
    have hle := c.length_nonRfiChannels_le
    show c.settings.startChan.toNat + ((UInt32.ofNat c.nonRfiChannels.length).toNat - 1) <
      UInt32.size
    omega
  · intro channel hmem
    exact absurd hmem List.not_mem_nil

/-- The configuration of the channels that are not flagged. -/
def excised (c : Config) (hkept : c.nonRfiChannels ≠ []) : Config where
  settings := c.excisedSettings
  fault?_eq_none := Settings.fault?_eq_none_iff.mpr (accepted_excisedSettings hkept)
  pairwise_rfiChannels := List.Pairwise.nil

end Config

end VoltageStats
