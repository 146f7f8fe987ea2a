import VoltageStats.Proofs.Views.Enumeration

/-!
# Channel numbers in views

The end of a band is told in three ways: by the check of its last channel, by the header view, and
by the numbers in the rows of the two views of channels. They agree exactly if the band has a
channel (`Statistics.numbers_channels_iff`). The check puts the end of an empty band at its start,
and the header view one channel before it (`Statistics.numbers_emptyBand`).
-/

namespace VoltageStats

theorem checkedEndChan_eq_some_iff {startChan nchan last : UInt32} :
    checkedEndChan startChan nchan = some last ↔
      startChan.toNat + (nchan.toNat - 1) = last.toNat := by
  have hlast : last.toNat < UInt32.size := last.toNat_lt
  rw [checkedEndChan]
  constructor
  · intro h
    split at h
    next hlt =>
      obtain rfl := Option.some.inj h
      exact (UInt32.toNat_ofNat_of_lt' hlt).symm
    next => cases h
  · intro h
    rw [h, if_pos hlast, UInt32.ofNat_toNat]

namespace Metadata

variable {m : Metadata}

/-- Some numbers are those of the channels of a band, in order. -/
structure ListsBand (m : Metadata) (numbers : List Nat) : Prop where
  pairwise : numbers.Pairwise (· < ·)
  mem_iff : ∀ k, k ∈ numbers ↔ m.startChan.toNat ≤ k ∧ k ≤ m.endChan.toNat
  length_eq : numbers.length = m.nchan.toNat

theorem endChan_of_empty (h : m.nchan = 0) : m.endChan.toNat = m.startChan.toNat - 1 := by
  have hlt : m.startChan.toNat - 1 < UInt32.size :=
    Nat.lt_of_le_of_lt (Nat.sub_le _ _) m.startChan.toNat_lt
  rw [endChan, if_pos h, UInt32.toNat_ofNat_of_lt' hlt]

theorem Consistent.endChan_of_ne (h : m.Consistent) (hne : m.nchan ≠ 0) :
    m.endChan.toNat = m.startChan.toNat + (m.nchan.toNat - 1) := by
  have hlast := isSome_checkedEndChan.mp h.endChan_isSome
  have hmin : min (m.startChan.toNat + (m.nchan.toNat - 1)) (UInt32.size - 1) =
      m.startChan.toNat + (m.nchan.toNat - 1) := by omega
  rw [endChan, if_neg hne, hmin, UInt32.toNat_ofNat_of_lt' hlast]

theorem toNat_nchan_eq_zero_iff : m.nchan.toNat = 0 ↔ m.nchan = 0 := by
  rw [← UInt32.toNat_inj]
  rfl

/-- As many numbers as there are channels, from the first channel on, are those of the band, unless
it is empty and starts at zero. -/
theorem Consistent.listsBand_iff (h : m.Consistent) :
    m.ListsBand (List.range' m.startChan.toNat m.nchan.toNat) ↔
      m.nchan ≠ 0 ∨ m.startChan.toNat ≠ 0 := by
  have hmem : ∀ k, k ∈ List.range' m.startChan.toNat m.nchan.toNat ↔
      m.startChan.toNat ≤ k ∧ k < m.startChan.toNat + m.nchan.toNat := by
    simp [List.mem_range'_1]
  constructor
  · intro hlists
    by_contra hzero
    obtain ⟨hempty, hstart⟩ : m.nchan = 0 ∧ m.startChan.toNat = 0 := by simpa using hzero
    have hend := endChan_of_empty hempty
    have hfirst := (hmem 0).mp ((hlists.mem_iff 0).mpr (by omega))
    have hnchan := toNat_nchan_eq_zero_iff.mpr hempty
    omega
  · intro hne
    refine ⟨List.pairwise_lt_range', fun k => ?_, List.length_range'⟩
    rw [hmem]
    by_cases hempty : m.nchan = 0
    · have hend := endChan_of_empty hempty
      have hnchan := toNat_nchan_eq_zero_iff.mpr hempty
      have hstart := hne.resolve_left (not_not_intro hempty)
      omega
    · have hend := h.endChan_of_ne hempty
      have hnchan := toNat_nchan_eq_zero_iff.not.mpr hempty
      omega

end Metadata

namespace Statistics

variable {s : Statistics}

/-- The numbers of the channels are the same wherever they are told. -/
structure NumbersChannels (s : Statistics) : Prop where
  /-- The check finds the last channel where the header has it. -/
  last : checkedEndChan s.metadata.startChan s.metadata.nchan = some s.metadata.endChan
  /-- One row of the header view is about the last channel, and shows it. -/
  header : (s.header.filter fun row => row.key = .endChan) =
    [⟨.endChan, .count s.metadata.endChan.toNat⟩]
  /-- No number of a channel is too large. -/
  inRange : ∀ i < s.metadata.nchan.toNat, s.metadata.startChan.toNat + i < UInt32.size
  channelStats : ∀ pol dim flag, ∃ rows,
    s.channelStats ⟨some pol, some dim, flag⟩ = some rows ∧
      s.metadata.ListsBand (rows.map (·.channel.toNat))
  spectralPower : ∀ pol dim flag, ∃ rows,
    s.spectralPower ⟨some pol, dim, flag⟩ = some rows ∧
      s.metadata.ListsBand (rows.map (·.channel.toNat))

theorem header_endChan (s : Statistics) : (s.header.filter fun row => row.key = .endChan) =
    [⟨.endChan, .count s.metadata.endChan.toNat⟩] := rfl

theorem map_channel_eq {Row : Type} {channel : Row → UInt32} {rows : List Row}
    (h : List.Forall₂ (fun i row => (channel row).toNat = s.metadata.startChan.toNat + i)
      (List.range s.metadata.nchan.toNat) rows) :
    rows.map (fun row => (channel row).toNat) =
      List.range' s.metadata.startChan.toNat s.metadata.nchan.toNat := by
  rw [List.range'_eq_map_range, ← List.forall₂_eq_eq_eq, List.forall₂_map_left_iff,
    List.forall₂_map_right_iff]
  exact h.flip

theorem Consistent.exists_channelStats (h : s.Consistent) (pol : Polarisation) (dim : Component)
    (flag : Option Bool) : ∃ rows, s.channelStats ⟨some pol, some dim, flag⟩ = some rows ∧
      rows.map (·.channel.toNat) =
        List.range' s.metadata.startChan.toNat s.metadata.nchan.toNat := by
  let sel : Selection := ⟨some pol, some dim, flag⟩
  have hplace : (Polarisation.all ×ˢ Component.all).filter
      (fun place => sel.admitsPol place.1 && sel.admitsDim place.2) = [(pol, dim)] := by
    cases pol <;> cases dim <;> rfl
  obtain ⟨rows, -, hshows, hselected⟩ := enumerates_channelStats h
  have hrows := forall₂_filter_place
    (q := fun row => sel.admitsPol row.pol && sel.admitsDim row.dim) hshows hplace
    fun place i row hrow => by
      obtain rfl : (row.pol, row.dim) = place := hrow.place_eq
      rfl
  exact ⟨_, hselected sel, map_channel_eq (hrows.imp fun i row hrow => hrow.channel)⟩

theorem Consistent.exists_spectralPower (h : s.Consistent) (pol : Polarisation)
    (dim : Option Component) (flag : Option Bool) :
    ∃ rows, s.spectralPower ⟨some pol, dim, flag⟩ = some rows ∧
      rows.map (·.channel.toNat) =
        List.range' s.metadata.startChan.toNat s.metadata.nchan.toNat := by
  let sel : Selection := ⟨some pol, dim, flag⟩
  have hplace : Polarisation.all.filter sel.admitsPol = [pol] := by cases pol <;> rfl
  obtain ⟨rows, -, hshows, hselected⟩ := enumerates_spectralPower h
  have hrows := forall₂_filter_place (q := fun row => sel.admitsPol row.pol) hshows hplace
    fun place i row hrow => by
      obtain rfl : row.pol = place := hrow.place_eq
      rfl
  exact ⟨_, hselected sel, map_channel_eq (hrows.imp fun i row hrow => hrow.channel)⟩

/-- The numbers of the channels are the same in the check of the last channel, in the header view
and in the two views of channels exactly if there is a channel. If there is none, then these views
have no rows, the check takes the first channel for the last, and the header has the one before
it. -/
theorem numbers_channels_iff {m : Metadata} {d : Data} (h : Statistics.ofParts m d = .ok s) :
    (s.NumbersChannels ↔ s.metadata.nchan ≠ 0) ∧
    (s.metadata.nchan = 0 →
      checkedEndChan s.metadata.startChan s.metadata.nchan = some s.metadata.startChan ∧
      s.metadata.endChan.toNat = s.metadata.startChan.toNat - 1 ∧
      (s.header.filter fun row => row.key = .endChan) =
        [⟨.endChan, .count (s.metadata.startChan.toNat - 1)⟩] ∧
      ∀ sel, s.channelStats sel = some [] ∧ s.spectralPower sel = some []) := by
  have hs : s.Consistent := consistent_of_ofParts h
  refine ⟨⟨fun hnumbers hempty => ?_, fun hne => ?_⟩, fun hempty => ?_⟩
  · have hlast := checkedEndChan_eq_some_iff.mp hnumbers.last
    have hend := Metadata.endChan_of_empty hempty
    obtain ⟨rows, hrows, hlists⟩ := hnumbers.channelStats .a .real none
    obtain ⟨rows', hrows', hnumbers'⟩ := hs.exists_channelStats .a .real none
    obtain rfl := Option.some.inj (hrows.symm.trans hrows')
    rw [hnumbers', hs.header.listsBand_iff] at hlists
    have hstart := hlists.resolve_left (not_not_intro hempty)
    omega
  · have hlists := hs.header.listsBand_iff.mpr (.inl hne)
    refine ⟨?_, s.header_endChan, fun i hi => ?_, fun pol dim flag => ?_, fun pol dim flag => ?_⟩
    · exact checkedEndChan_eq_some_iff.mpr (hs.header.endChan_of_ne hne).symm
    · have hlast := isSome_checkedEndChan.mp hs.header.endChan_isSome
      omega
    · obtain ⟨rows, hrows, hnumbers⟩ := hs.exists_channelStats pol dim flag
      exact ⟨rows, hrows, hnumbers ▸ hlists⟩
    · obtain ⟨rows, hrows, hnumbers⟩ := hs.exists_spectralPower pol dim flag
      exact ⟨rows, hrows, hnumbers ▸ hlists⟩
  · have hend := Metadata.endChan_of_empty hempty
    have hnchan := Metadata.toNat_nchan_eq_zero_iff.mpr hempty
    refine ⟨?_, hend, hend ▸ s.header_endChan, fun sel => ⟨?_, ?_⟩⟩
    · exact checkedEndChan_eq_some_iff.mpr (by omega)
    · have hrows := enumerates_channelStats hs
      rw [hnchan, List.range_zero, List.product_nil] at hrows
      exact hrows.eq_nil sel
    · have hrows := enumerates_spectralPower hs
      rw [hnchan, List.range_zero, List.product_nil] at hrows
      exact hrows.eq_nil sel

/-- Statistics of two channels, the last one with the largest number. -/
def lastChannels : Statistics :=
  { numberedCounts with metadata := { numberedCounts.metadata with startChan := 4294967294 } }

theorem numbers_lastChannels :
    ofParts lastChannels.metadata lastChannels.data = .ok lastChannels ∧
      lastChannels.NumbersChannels ∧ lastChannels.metadata.endChan = 4294967295 := by
  have hparts : ofParts lastChannels.metadata lastChannels.data = .ok lastChannels := by
    refine ofParts_eq_ok_iff.mpr ⟨?_, ?_, rfl⟩ <;> decide +kernel
  exact ⟨hparts, (numbers_channels_iff hparts).1.mpr (by decide), by decide⟩

/-- Statistics of a band that starts with channel 10 and is empty. -/
def emptyBand : Statistics where
  metadata :=
    { Metadata.single with
      startChan := 10, nchan := 0, channelFreqMhz := #[], numSamplesSpectrum := #[] }
  data := FileTree.zeros { Metadata.single with nchan := 0 }

/-- They pass all checks, but the end of the band is channel 10 in one place and 9 in another. -/
theorem numbers_emptyBand :
    ofParts emptyBand.metadata emptyBand.data = .ok emptyBand ∧
      checkedEndChan emptyBand.metadata.startChan emptyBand.metadata.nchan = some 10 ∧
      emptyBand.metadata.endChan = 9 ∧ ¬ emptyBand.NumbersChannels := by
  have hlast : checkedEndChan emptyBand.metadata.startChan emptyBand.metadata.nchan = some 10 := by
    decide
  have hend : emptyBand.metadata.endChan = 9 := by decide
  refine ⟨ofParts_eq_ok_iff.mpr ⟨?_, ?_, rfl⟩, hlast, hend, fun h => ?_⟩
  · decide +kernel
  · decide +kernel
  · have hsame := h.last
    rw [hlast, hend] at hsame
    exact absurd hsame (by decide)

end Statistics

end VoltageStats
