import VoltageStats.Proofs.Generator.Band

/-!
# Flagged channels

However often and in whatever order settings name the flagged channels, a configuration holds them
sorted and once each (`ascending_eq`), and two lists of the same channels make no difference
(`Config.ofSettings_congr`). Flagged channels are the last thing that is checked
(`Settings.fault?_eq_or`). So they are refused exactly if one of them is no channel, and the least
of these is named (`Config.flagged_partition`).
-/

namespace VoltageStats

/-! ## Channels in ascending order -/

variable {a bound : Nat} {channels : List Nat}

/-- Adjacent repetitions are left out, and every channel stays. -/
theorem mem_destutter'_ne {c : Nat} :
    a ∈ channels.destutter' (· ≠ ·) c ↔ a = c ∨ a ∈ channels := by
  induction channels generalizing c with
  | nil => simp
  | cons b channels ih =>
      by_cases hne : c ≠ b
      · rw [List.destutter'_cons_pos _ hne, List.mem_cons, ih, List.mem_cons]
      · obtain rfl := not_not.mp hne
        rw [List.destutter'_cons_neg _ hne, ih, List.mem_cons, or_self_left]

theorem mem_destutter_ne : a ∈ channels.destutter (· ≠ ·) ↔ a ∈ channels := by
  cases channels with
  | nil => rfl
  | cons c channels => rw [List.destutter_cons', mem_destutter'_ne, List.mem_cons]

/-- Without adjacent repetitions what is in order is strictly in order. -/
theorem sortedLT_destutter_ne (h : channels.SortedLE) :
    (channels.destutter (· ≠ ·)).SortedLT := by
  have hle : (channels.destutter (· ≠ ·)).IsChain (· ≤ ·) :=
    (h.pairwise.sublist (List.destutter_sublist _ channels)).isChain
  have hne := List.isChain_destutter (· ≠ ·) channels
  rw [List.isChain_iff_forall_rel_of_append_cons_cons] at hle hne
  refine List.IsChain.sortedLT (List.isChain_iff_forall_rel_of_append_cons_cons.mpr ?_)
  intro b c before after heq
  exact lt_of_le_of_ne (hle heq) (hne heq)

theorem sortedLT_ascending (channels : List Nat) : (ascending channels).SortedLT :=
  (pairwise_ascending channels).sortedLT

/-- Channels are brought into ascending order by sorting them and leaving out repetitions. -/
theorem ascending_eq (channels : List Nat) :
    ascending channels = (channels.mergeSort (· ≤ ·)).destutter (· ≠ ·) := by
  refine (sortedLT_ascending channels).eq_of_mem_iff
    (sortedLT_destutter_ne List.sortedLE_mergeSort) fun a => ?_
  rw [mem_ascending, mem_destutter_ne, List.mem_mergeSort]

/-- Neither order nor repetitions make a difference. -/
theorem ascending_congr {others : List Nat} (h : ∀ i, i ∈ others ↔ i ∈ channels) :
    ascending others = ascending channels := by
  refine (sortedLT_ascending others).eq_of_mem_iff (sortedLT_ascending channels) fun i => ?_
  rw [mem_ascending, mem_ascending, h]

/-- In ascending order the first channel that is found is the least one. -/
theorem find?_eq_some_iff_isLeast (h : channels.Pairwise (· < ·)) :
    channels.find? (fun channel => bound ≤ channel) = some a ↔
      IsLeast {i | i ∈ channels ∧ bound ≤ i} a := by
  induction channels with
  | nil => simp [IsLeast]
  | cons c channels ih =>
      have ⟨hc, hrest⟩ := List.pairwise_cons.mp h
      by_cases hbound : bound ≤ c
      · have hleast : IsLeast {i | i ∈ c :: channels ∧ bound ≤ i} c := by
          refine ⟨⟨List.mem_cons_self, hbound⟩, fun i hi => ?_⟩
          rcases List.mem_cons.mp hi.1 with rfl | hmem
          · exact Nat.le_refl i
          · exact Nat.le_of_lt (hc i hmem)
        rw [List.find?_cons_of_pos (by simpa using hbound), Option.some.injEq]
        constructor
        · rintro rfl
          exact hleast
        · exact fun h => hleast.unique h
      · have hset : {i | i ∈ c :: channels ∧ bound ≤ i} = {i | i ∈ channels ∧ bound ≤ i} := by
          ext i
          simp only [Set.mem_ofPred_eq, List.mem_cons]
          constructor
          · rintro ⟨rfl | hmem, hi⟩
            · exact absurd hi hbound
            · exact ⟨hmem, hi⟩
          · exact fun hi => ⟨.inr hi.1, hi.2⟩
        rw [List.find?_cons_of_neg (by simpa using hbound), ih hrest, hset]

/-! ## The last check -/

namespace Settings

/-- The flagged channels are what is checked last. -/
theorem fault?_eq_or (s : Settings) :
    s.fault? = ({ s with rfiChannels := [] } : Settings).fault?.or
      ((s.rfiChannels.find? fun channel => s.nchan.toNat ≤ channel).map fun channel =>
        .flaggedChannelOutOfRange channel s.nchan) := by
  have haxis : ({ s with rfiChannels := [] } : Settings).axisLengths = s.axisLengths := rfl
  have hcounts : ({ s with rfiChannels := [] } : Settings).counts = s.counts := rfl
  have hquantities : ({ s with rfiChannels := [] } : Settings).quantities = s.quantities := rfl
  unfold fault?
  rw [haxis, hcounts, hquantities]
  dsimp only
  split
  · rfl
  · split
    · rfl
    · split
      · rfl
      · split
        · rfl
        · split <;> rfl

/-- Where no channel is flagged, none is refused. -/
theorem fault?_ne_flagged (s : Settings) (channel : Nat) (nchan : UInt32) :
    ({ s with rfiChannels := [] } : Settings).fault? ≠
      some (.flaggedChannelOutOfRange channel nchan) := by
  unfold fault?
  split
  · simp
  · split
    · simp
    · split
      · simp
      · split
        · simp
        · split <;> simp

/-- A flagged channel is refused if it is the first that is none of the channels, and nothing else
is wrong. -/
theorem fault?_eq_flagged_iff {s : Settings} {channel : Nat} {nchan : UInt32} :
    s.fault? = some (.flaggedChannelOutOfRange channel nchan) ↔
      ({ s with rfiChannels := [] } : Settings).Accepted ∧ nchan = s.nchan ∧
        s.rfiChannels.find? (fun channel => s.nchan.toNat ≤ channel) = some channel := by
  rw [fault?_eq_or, Option.or_eq_some_iff, or_iff_right (s.fault?_ne_flagged channel nchan),
    fault?_eq_none_iff, Option.map_eq_some_iff]
  refine and_congr_right fun _ => ?_
  constructor
  · intro h
    obtain ⟨c, hfind, heq⟩ := h
    obtain ⟨rfl, rfl⟩ := ConfigError.flaggedChannelOutOfRange.inj heq
    exact ⟨rfl, hfind⟩
  · intro h
    obtain ⟨rfl, hfind⟩ := h
    exact ⟨channel, hfind, rfl⟩

end Settings

namespace Config

variable {s : Settings} {c : Config}

theorem ofSettings_eq_error_iff {error : ConfigError} :
    ofSettings s = .error error ↔
      ({ s with rfiChannels := ascending s.rfiChannels } : Settings).fault? = some error := by
  unfold ofSettings
  dsimp only
  split
  next _ hfault => rw [hfault, Except.error.injEq, Option.some.injEq]
  next hfault => simp [hfault]

/-- In whatever order and how often the flagged channels are named makes no difference. -/
theorem ofSettings_congr {flagged : List Nat} (h : ∀ i, i ∈ flagged ↔ i ∈ s.rfiChannels) :
    ofSettings { s with rfiChannels := flagged } = ofSettings s := by
  cases hresult : ofSettings s with
  | error error =>
      rw [ofSettings_eq_error_iff] at hresult ⊢
      rw [← hresult, ← ascending_congr h]
  | ok c =>
      rw [ofSettings_eq_ok_iff] at hresult ⊢
      rw [hresult, ← ascending_congr h]

/-- The settings of a configuration are those it is made from. -/
theorem ofSettings_settings (c : Config) : ofSettings c.settings = .ok c := by
  have hascending : ascending c.settings.rfiChannels = c.settings.rfiChannels :=
    (sortedLT_ascending _).eq_of_mem_iff c.pairwise_rfiChannels.sortedLT fun _ => mem_ascending
  rw [ofSettings_eq_ok_iff, hascending]

/-- The flagged channels of a configuration and the others divide its channels among them, both in
ascending order, and the flagged ones are those on a list. -/
structure Partition (c : Config) (flagged : List Nat) : Prop where
  flagged_eq : c.settings.rfiChannels = (flagged.mergeSort (· ≤ ·)).destutter (· ≠ ·)
  mem_flagged_iff : ∀ i, i ∈ c.settings.rfiChannels ↔ i ∈ flagged
  pairwise_flagged : c.settings.rfiChannels.Pairwise (· < ·)
  pairwise_others : c.nonRfiChannels.Pairwise (· < ·)
  disjoint : c.settings.rfiChannels.Disjoint c.nonRfiChannels
  mem_or_mem_iff : ∀ i, i ∈ c.settings.rfiChannels ∨ i ∈ c.nonRfiChannels ↔ i < c.nchan

theorem partition_of_ofSettings (h : ofSettings s = .ok c) : c.Partition s.rfiChannels := by
  have hflagged : c.settings.rfiChannels = ascending s.rfiChannels := by
    rw [ofSettings_eq_ok_iff.mp h]
  constructor
  · rw [hflagged, ascending_eq]
  · intro i
    rw [hflagged, mem_ascending]
  · exact c.pairwise_rfiChannels
  · exact List.pairwise_lt_range.filter _
  · exact fun i hmem hother => (mem_nonRfiChannels.mp hother).2 hmem
  · intro i
    rw [mem_nonRfiChannels]
    by_cases hmem : i ∈ c.settings.rfiChannels
    · simp [hmem, c.accepted.flagged_lt i hmem, nchan]
    · simp [hmem]

/-- Flagged channels are normalised. In a configuration they and the other channels divide the
channels among them, and its settings make it again. Settings that name the same channels have the
same outcome. A flagged channel is refused if everything else is accepted and some of them is no
channel, and it is the least one of those. -/
theorem flagged_partition (s : Settings) :
    (∀ c, ofSettings s = .ok c → c.Partition s.rfiChannels ∧ ofSettings c.settings = .ok c) ∧
    (∀ flagged, (∀ i, i ∈ flagged ↔ i ∈ s.rfiChannels) →
      ofSettings { s with rfiChannels := flagged } = ofSettings s) ∧
    (∀ channel nchan, ofSettings s = .error (.flaggedChannelOutOfRange channel nchan) ↔
      ({ s with rfiChannels := [] } : Settings).Accepted ∧ nchan = s.nchan ∧
        IsLeast {i | i ∈ s.rfiChannels ∧ s.nchan.toNat ≤ i} channel) ∧
    (({ s with rfiChannels := [] } : Settings).Accepted →
      ((∃ channel nchan, ofSettings s = .error (.flaggedChannelOutOfRange channel nchan)) ↔
        ∃ i ∈ s.rfiChannels, s.nchan.toNat ≤ i)) := by
  have hrefused : ∀ channel nchan,
      ofSettings s = .error (.flaggedChannelOutOfRange channel nchan) ↔
        ({ s with rfiChannels := [] } : Settings).Accepted ∧ nchan = s.nchan ∧
          IsLeast {i | i ∈ s.rfiChannels ∧ s.nchan.toNat ≤ i} channel := by
    intro channel nchan
    rw [ofSettings_eq_error_iff, Settings.fault?_eq_flagged_iff,
      find?_eq_some_iff_isLeast (pairwise_ascending _)]
    simp only [mem_ascending]
  refine ⟨fun c h => ⟨partition_of_ofSettings h, c.ofSettings_settings⟩,
    fun flagged h => ofSettings_congr h, hrefused, fun haccepted => ?_⟩
  constructor
  · intro h
    obtain ⟨channel, nchan, h⟩ := h
    obtain ⟨-, -, hleast⟩ := (hrefused channel nchan).mp h
    exact ⟨channel, hleast.1⟩
  · intro h
    obtain ⟨i, hi⟩ := h
    have hne : {i | i ∈ s.rfiChannels ∧ s.nchan.toNat ≤ i}.Nonempty := ⟨i, hi⟩
    exact ⟨_, s.nchan, (hrefused _ _).mpr ⟨haccepted, rfl, isLeast_csInf hne⟩⟩

/-- Of three channels the middle one is flagged, however often. Of the channels 7, 1 and 5 it is
channel 5 that is refused. -/
theorem flagged_partition_threeChannels :
    ofSettings { threeChannels.settings with rfiChannels := [1, 1] } = .ok threeChannels ∧
      threeChannels.Partition [1, 1] ∧
      ({ threeChannels.settings with rfiChannels := [] } : Settings).Accepted ∧
      ofSettings { threeChannels.settings with rfiChannels := [7, 1, 5, 7] } =
        .error (.flaggedChannelOutOfRange 5 3) := by
  have haccepted : ({ threeChannels.settings with rfiChannels := [] } : Settings).Accepted :=
    Settings.fault?_eq_none_iff.mp (by decide +kernel)
  have hok : ofSettings { threeChannels.settings with rfiChannels := [1, 1] } =
      .ok threeChannels :=
    ((flagged_partition threeChannels.settings).2.1 [1, 1] (by simp [threeChannels])).trans
      threeChannels.ofSettings_settings
  have hleast : IsLeast {i | i ∈ [7, 1, 5, 7] ∧ 3 ≤ i} 5 := by
    refine ⟨by decide, fun i hi => ?_⟩
    obtain ⟨hmem, hle⟩ := hi
    simp only [List.mem_cons, List.not_mem_nil, or_false] at hmem
    omega
  exact ⟨hok, ((flagged_partition _).1 threeChannels hok).1, haccepted,
    ((flagged_partition _).2.2.1 5 3).mpr ⟨haccepted, rfl, hleast⟩⟩

end Config

end VoltageStats
