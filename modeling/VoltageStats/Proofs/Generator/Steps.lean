import VoltageStats.Generator.Checked
import VoltageStats.Proofs.Checked
import VoltageStats.Proofs.Generator.Counts

/-!
# Steps of the reduction that cannot go wrong

Where a step is taken with numbers that fit it comes to what is computed without the check. A loop
does so as long as each of its steps does; `foldlM_eq_ok` carries along what is known of the counts,
which is that none of them is larger than the number of samples gone through (`AtMost`). So both
passes over the samples come to the same counts as without checks (`Takes.countsChecked_eq`).
-/

namespace VoltageStats

namespace Checked

variable {α β : Type} {n i j : Nat}

@[simp] theorem ok_bind (a : α) (f : α → Checked β) : (Except.ok a : Checked α) >>= f = f a := rfl

/-! ## Single steps -/

theorem word_eq (h : n < 2 ^ 32) : word n = .ok n := if_pos h

theorem word_eq_ok_iff {m : Nat} : word n = .ok m ↔ n < 2 ^ 32 ∧ n = m := by
  unfold word
  split
  next h =>
    rw [Except.ok.injEq]
    exact (and_iff_right h).symm
  next h =>
    constructor
    · intro herror
      cases herror
    · intro hlt
      exact absurd hlt.1 h

theorem passed_eq_ok_iff {ε : Type} {check : Except ε Unit} {u : Unit} :
    passed check = .ok u ↔ check = .ok () := by
  cases check with
  | ok _ => simp [passed]
  | error _ => simp [passed]

theorem size_eq (h : n < 2 ^ 64) : size n = .ok n := if_pos h

theorem signed_eq {n : Int} (hlow : -2 ^ 31 ≤ n) (hhigh : n < 2 ^ 31) : signed n = .ok n :=
  if_pos ⟨hlow, hhigh⟩

theorem quotient_eq {a b : Nat} (h : b ≠ 0) : quotient a b = .ok (a / b) := if_neg h

theorem clamp_eq {n low high : Int} (h : low ≤ high) :
    clamp n low high = .ok (min (max n low) high) := if_neg (Int.not_lt.mpr h)

theorem axis_eq (h : i < n) : axis i n = .ok () := if_pos h

theorem get_eq {xs : Vector α n} (h : i < n) : get xs i = .ok xs[i] := by
  rw [get, Vector.getElem?_eq_getElem h]

theorem set_eq {xs : Vector α n} (h : i < n) (x : α) :
    set xs i x = .ok (xs.setIfInBounds i x) := if_pos h

theorem cell_eq {t : Tensor α} {index : List Nat} {x : α} (h : t.get? index = some x) :
    cell t index = .ok x := by
  rw [cell, h]

theorem slice_eq {xs : List α} {start stop : Nat} (h : start ≤ stop) (hstop : stop ≤ xs.length) :
    slice xs start stop = .ok ((xs.drop start).take (stop - start)) := if_pos ⟨h, hstop⟩

/-- The items of a bin are there if its end is. -/
theorem block_eq {xs : List α} {factor bin : Nat} (hstop : (bin + 1) * factor ≤ xs.length)
    (hbin : bin + 1 < 2 ^ 64) (hlength : xs.length < 2 ^ 64) :
    block xs factor bin = .ok ((xs.drop (bin * factor)).take factor) := by
  have hstep : (bin + 1) * factor = bin * factor + factor := Nat.succ_mul bin factor
  have hstart : bin * factor < 2 ^ 64 := by omega
  have hle : bin * factor ≤ (bin + 1) * factor := by omega
  rw [block, size_eq hstart, ok_bind, size_eq hbin, ok_bind,
    size_eq (Nat.lt_of_le_of_lt hstop hlength), ok_bind, slice_eq hle hstop, hstep,
    Nat.add_sub_cancel_left]

/-! ## Loops -/

theorem mapM_eq_ok {f : α → Checked β} {g : α → β} {xs : List α}
    (h : ∀ x ∈ xs, f x = .ok (g x)) : xs.mapM f = .ok (xs.map g) := by
  induction xs with
  | nil => rfl
  | cons x xs ih =>
      rw [List.mapM_cons, h x List.mem_cons_self, ok_bind,
        ih fun y hy => h y (List.mem_cons_of_mem _ hy)]
      rfl

theorem ofFnM_eq_ok {f : Fin n → Checked α} {g : Fin n → α} (h : ∀ i, f i = .ok (g i)) :
    Vector.ofFnM f = .ok (Vector.ofFn g) := by
  have hpure : f = fun i => pure (g i) := funext h
  rw [hpure, Vector.ofFnM_pure]
  rfl

/-- A loop comes to what it does without checks, if each of its steps does as long as what is known
of the result so far leaves room for a step. A step uses up `cost` of the room there is. -/
theorem foldlM_eq_ok {P : Nat → β → Prop} {limit cost : Nat} {f : β → α → Checked β}
    {g : β → α → β} {xs : List α}
    (hstep : ∀ x ∈ xs, ∀ k b, k + cost < limit → P k b → f b x = .ok (g b x) ∧ P (k + cost) (g b x))
    {k : Nat} {b : β} (hb : P k b) (hk : k + xs.length * cost < limit) :
    xs.foldlM f b = .ok (xs.foldl g b) ∧ P (k + xs.length * cost) (xs.foldl g b) := by
  induction xs generalizing k b with
  | nil =>
      rw [List.length_nil, Nat.zero_mul, Nat.add_zero]
      exact ⟨rfl, hb⟩
  | cons x xs ih =>
      rw [List.length_cons, Nat.succ_mul, Nat.add_comm (xs.length * cost), ← Nat.add_assoc] at hk ⊢
      obtain ⟨hx, hnext⟩ := hstep x List.mem_cons_self k b (by omega) hb
      obtain ⟨hxs, hlast⟩ := ih (fun y hy => hstep y (List.mem_cons_of_mem _ hy)) hnext hk
      rw [List.foldlM_cons, hx, ok_bind, List.foldl_cons]
      exact ⟨hxs, hlast⟩

/-- A sum comes to what it does without checks, if that fits a word. -/
theorem total_eq {xs : List Nat} (h : xs.sum < 2 ^ 32) : total xs = .ok xs.sum := by
  have hfold : ∀ (xs : List Nat) (start : Nat), start + xs.sum < 2 ^ 32 →
      xs.foldlM (fun sum x => word (sum + x)) start = .ok (start + xs.sum) := by
    intro xs
    induction xs with
    | nil =>
        intro start _
        rfl
    | cons x xs ih =>
        intro start hlt
        rw [List.sum_cons, ← Nat.add_assoc] at hlt ⊢
        rw [List.foldlM_cons, word_eq (by omega), ok_bind]
        exact ih (start + x) hlt
  have hsum := hfold xs 0 (by rwa [Nat.zero_add])
  rwa [Nat.zero_add] at hsum

/-! ## Counts -/

/-- No count is larger than a number. -/
def AtMost (k : Nat) (counts : Vector Nat n) : Prop := ∀ i, (h : i < n) → counts[i] ≤ k

theorem atMost_zero (n : Nat) : AtMost 0 (.replicate n 0) := by
  intro i hi
  rw [Vector.getElem_replicate]

theorem AtMost.mono {k l : Nat} {counts : Vector Nat n} (h : AtMost k counts) (hle : k ≤ l) :
    AtMost l counts := fun i hi => Nat.le_trans (h i hi) hle

theorem AtMost.increment {k : Nat} {counts : Vector Nat n} (h : AtMost k counts) (i : Nat) :
    AtMost (k + 1) (increment counts i) := by
  intro j hj
  have hle := h j hj
  rw [getElem_increment]
  split <;> omega

theorem count_eq {k : Nat} {counts : Vector Nat n} (hi : i < n) (h : AtMost k counts)
    (hk : k + 1 < 2 ^ 32) : count counts i = .ok (increment counts i) := by
  have hlt : counts[i] + 1 < 2 ^ 32 := Nat.lt_of_le_of_lt (Nat.succ_le_succ (h i hi)) hk
  rw [count, get_eq hi, ok_bind, word_eq hlt]
  rfl

theorem countAt_eq {k : Nat} {counts : Vector Nat (volume [n, n])} (hi : i < n) (hj : j < n)
    (h : AtMost k counts) (hk : k + 1 < 2 ^ 32) :
    countAt counts i j = .ok (increment counts (i * n + j)) := by
  have hlt : i * n + j < volume [n, n] := by
    rw [volume, volume, volume, Nat.mul_one]
    calc i * n + j < i * n + n := Nat.add_lt_add_left hj _
      _ = (i + 1) * n := (Nat.succ_mul i n).symm
      _ ≤ n * n := Nat.mul_le_mul_right _ hi
  rw [countAt, axis_eq hi, ok_bind, axis_eq hj, ok_bind, count_eq hlt h hk]

end Checked

namespace Config

variable {c : Config} {sample : Int}

/-! ## Bins of raw values -/

theorem signed_low (c : Config) : Checked.signed (-c.nbitLimit) = .ok c.clipLow := by
  have hle := c.nbitLimit_le
  exact Checked.signed_eq (by omega) (by omega)

theorem signed_high (c : Config) : Checked.signed (c.nbitLimit - 1) = .ok c.clipHigh := by
  have hle := c.nbitLimit_le
  exact Checked.signed_eq (by omega) (by omega)

theorem binChecked_eq (hlow : c.clipLow ≤ sample) (hhigh : sample ≤ c.clipHigh) :
    c.binChecked sample = .ok (c.bin sample) := by
  have hle := c.nbitLimit_le
  have hlimits : c.clipHigh = -c.clipLow - 1 ∧ c.clipLow = -c.nbitLimit := by
    rw [clipHigh, clipLow, Int.neg_neg]
    exact ⟨rfl, rfl⟩
  have hoffset : Checked.signed (sample - c.clipLow) = .ok (sample - c.clipLow) :=
    Checked.signed_eq (by omega) (by omega)
  rw [binChecked, signed_low, Checked.ok_bind, hoffset, Checked.ok_bind, if_neg (by omega)]
  rfl

/-- Below the range there is no bin. -/
example : threeChannels.binChecked (-129) = .error .index := rfl

/-- The last bin of the rebinned histograms, found in signed words. -/
def lastBinChecked (c : Config) : Checked Int :=
  Checked.signed ((c.nrebin : Int).bmod (2 ^ 32) - 1)

/-- The last bin is found if it fits a signed word. -/
theorem lastBinChecked_eq (hrebin : c.nrebin < 2 ^ 31) :
    c.lastBinChecked = .ok (c.nrebin - 1) := by
  have hpos := c.nrebin_pos
  have hcast : (c.nrebin : Int).bmod (2 ^ 32) = c.nrebin := by
    rw [Int.bmod_eq_of_le] <;> omega
  rw [lastBinChecked, hcast]
  exact Checked.signed_eq (by omega) (by omega)

/-- A raw value is rebinned by shifting it and bringing it between the first bin and the last. -/
theorem rebinChecked_eq_bind (c : Config) (sample : Int) :
    c.rebinChecked sample = (do
      let shifted ← Checked.signed (sample + c.rebinOffset)
      let last ← c.lastBinChecked
      let bin ← Checked.clamp shifted 0 last
      return bin.toNat) := rfl

/-- A raw value is rebinned without overflow if the last bin fits a signed word. -/
theorem rebinChecked_eq (hrebin : c.nrebin < 2 ^ 31) (hlow : c.clipLow ≤ sample)
    (hhigh : sample ≤ c.clipHigh) : c.rebinChecked sample = .ok (c.rebin sample) := by
  have hle := c.nbitLimit_le
  have hpos := c.nrebin_pos
  have hhalf : c.nrebin / 2 < 2 ^ 30 := by omega
  have hlimits : c.clipHigh = c.nbitLimit - 1 ∧ c.clipLow = -c.nbitLimit := ⟨rfl, rfl⟩
  have hshifted : Checked.signed (sample + c.rebinOffset) = .ok (sample + c.rebinOffset) := by
    rw [rebinOffset]
    exact Checked.signed_eq (by omega) (by omega)
  rw [rebinChecked_eq_bind, hshifted, Checked.ok_bind, lastBinChecked_eq hrebin, Checked.ok_bind,
    Checked.clamp_eq (by omega), Checked.ok_bind, rebin, rebinMax_eq hrebin]
  rfl

theorem isClippedChecked_eq (c : Config) (sample : Int) :
    c.isClippedChecked sample = .ok (c.isClipped sample) := by
  rw [isClippedChecked, signed_low, Checked.ok_bind, signed_high]
  rfl

theorem axis_pol (c : Config) (pol : Polarisation) :
    Checked.axis pol.index c.settings.npol.toNat = .ok () :=
  Checked.axis_eq (c.toNat_npol ▸ pol.index_lt)

theorem place_eq (c : Config) (pol : Polarisation) (component : Component) :
    c.place pol component = .ok () := by
  rw [place, c.axis_pol, Checked.ok_bind, Checked.axis_eq (c.toNat_ndim ▸ component.index_lt)]

end Config

/-! ## One sample -/

section

open Checked (AtMost)

variable {c : Config} {channel k : Nat}

/-- A raw value of a configuration. -/
def Config.InRange (c : Config) (sample : Int) : Prop := c.clipLow ≤ sample ∧ sample ≤ c.clipHigh

namespace Bins

/-- No count in histograms is larger than a number. -/
def AtMost (k : Nat) (bins : Bins c) : Prop :=
  Checked.AtMost k bins.histogram ∧ Checked.AtMost k bins.rebinned

theorem atMost_zero (c : Config) : AtMost 0 (zero c) :=
  ⟨Checked.atMost_zero _, Checked.atMost_zero _⟩

theorem AtMost.mono {l : Nat} {bins : Bins c} (h : bins.AtMost k) (hle : k ≤ l) :
    bins.AtMost l := ⟨h.1.mono hle, h.2.mono hle⟩

theorem addChecked_eq (hrebin : c.nrebin < 2 ^ 31) (pol : Polarisation) (component : Component)
    {bins : Bins c} (h : bins.AtMost k) (hk : k + 1 < 2 ^ 32) {sample : Int}
    (hrange : c.InRange sample) :
    bins.addChecked pol component sample = .ok (bins.add sample) ∧
      (bins.add sample).AtMost (k + 1) := by
  obtain ⟨hlow, hhigh⟩ := hrange
  have hhistogram := Checked.count_eq (Config.bin_lt hlow hhigh) h.1 hk
  have hrebinned := Checked.count_eq (Config.rebin_lt hrebin sample) h.2 hk
  refine ⟨?_, h.1.increment _, h.2.increment _⟩
  rw [addChecked, c.place_eq, Checked.ok_bind, Config.binChecked_eq hlow hhigh, Checked.ok_bind,
    hhistogram, Checked.ok_bind, Config.rebinChecked_eq hrebin hlow hhigh, Checked.ok_bind,
    hrebinned]
  rfl

end Bins

namespace SampleCounts

/-- No count of a component is larger than a number. -/
def AtMost (k : Nat) (counts : SampleCounts c) : Prop :=
  counts.bins.AtMost k ∧ Checked.AtMost k counts.clipped

theorem addChecked_eq (hrebin : c.nrebin < 2 ^ 31) (pol : Polarisation) (component : Component)
    (hchannel : channel < c.nchan) {counts : SampleCounts c} (h : counts.AtMost k)
    (hk : k + 1 < 2 ^ 32) {sample : Int} (hrange : c.InRange sample) :
    counts.addChecked pol component channel sample = .ok (counts.add channel sample) ∧
      (counts.add channel sample).AtMost (k + 1) := by
  obtain ⟨hbins, hmost⟩ := Bins.addChecked_eq hrebin pol component h.1 hk hrange
  rw [addChecked, hbins, Checked.ok_bind, Config.isClippedChecked_eq, Checked.ok_bind]
  show _ ∧ AtMost _ ⟨_, if c.isClipped sample then increment counts.clipped channel
    else counts.clipped⟩
  cases hclipped : c.isClipped sample with
  | true =>
      rw [if_pos rfl, Checked.count_eq hchannel h.2 hk, Checked.ok_bind, if_pos rfl, add, hclipped]
      exact ⟨rfl, hmost, h.2.increment channel⟩
  | false =>
      rw [if_neg Bool.false_ne_true, if_neg Bool.false_ne_true, add, hclipped]
      exact ⟨rfl, hmost, h.2.mono (Nat.le_succ k)⟩

/-- The samples of a channel are counted as long as there are few enough. -/
theorem foldlM_addChecked (hrebin : c.nrebin < 2 ^ 31) (pol : Polarisation)
    (component : Component) (hchannel : channel < c.nchan) {samples : List Int}
    (hrange : ∀ sample ∈ samples, c.InRange sample) {counts : SampleCounts c}
    (h : counts.AtMost k) (hk : k + samples.length < 2 ^ 32) :
    samples.foldlM (addChecked pol component channel) counts =
        .ok (samples.foldl (add channel) counts) ∧
      (samples.foldl (add channel) counts).AtMost (k + samples.length) := by
  have hstep : ∀ sample ∈ samples, ∀ k (counts : SampleCounts c), k + 1 < 2 ^ 32 →
      counts.AtMost k →
        counts.addChecked pol component channel sample = .ok (counts.add channel sample) ∧
          (counts.add channel sample).AtMost (k + 1) := fun sample hmem k counts hk hcounts =>
    addChecked_eq hrebin pol component hchannel hcounts hk (hrange sample hmem)
  have hfold := Checked.foldlM_eq_ok (P := AtMost) hstep h (by rwa [Nat.mul_one])
  rwa [Nat.mul_one] at hfold

end SampleCounts

namespace PairCounts

/-- No count of both components together is larger than a number. -/
def AtMost (k : Nat) (counts : PairCounts c) : Prop :=
  Checked.AtMost k counts.joint ∧ Checked.AtMost k counts.jointKept ∧
    counts.realKept.AtMost k ∧ counts.imagKept.AtMost k

theorem addChecked_eq (hrebin : c.nrebin < 2 ^ 31) (pol : Polarisation) (isFlagged : Bool)
    {counts : PairCounts c} (h : counts.AtMost k) (hk : k + 1 < 2 ^ 32) {pair : Int × Int}
    (hre : c.InRange pair.1) (him : c.InRange pair.2) :
    counts.addChecked pol isFlagged pair = .ok (counts.add isFlagged pair) ∧
      (counts.add isFlagged pair).AtMost (k + 1) := by
  obtain ⟨hjoint, hkept, hreal, himag⟩ := h
  have hcount : ∀ counts : Vector Nat (volume [c.nrebin, c.nrebin]), Checked.AtMost k counts →
      Checked.countAt counts (c.rebin pair.1) (c.rebin pair.2) =
        .ok (increment counts (c.jointBin pair.1 pair.2)) := fun counts hmost =>
    Checked.countAt_eq (Config.rebin_lt hrebin _) (Config.rebin_lt hrebin _) hmost hk
  rw [addChecked, c.axis_pol, Checked.ok_bind, Config.rebinChecked_eq hrebin hre.1 hre.2,
    Checked.ok_bind, Config.rebinChecked_eq hrebin him.1 him.2, Checked.ok_bind,
    hcount _ hjoint, Checked.ok_bind]
  cases isFlagged with
  | true =>
      rw [if_pos rfl]
      exact ⟨rfl, hjoint.increment _, hkept.mono (Nat.le_succ k), hreal.mono (Nat.le_succ k),
        himag.mono (Nat.le_succ k)⟩
  | false =>
      obtain ⟨hrealAdd, hrealMost⟩ := Bins.addChecked_eq hrebin pol .real hreal hk hre
      obtain ⟨himagAdd, himagMost⟩ := Bins.addChecked_eq hrebin pol .imag himag hk him
      rw [if_neg Bool.false_ne_true, hcount _ hkept, Checked.ok_bind, hrealAdd, Checked.ok_bind,
        himagAdd]
      exact ⟨rfl, hjoint.increment _, hkept.increment _, hrealMost, himagMost⟩

/-- The pairs of a channel are counted as long as there are few enough. -/
theorem foldlM_addChecked (hrebin : c.nrebin < 2 ^ 31) (pol : Polarisation) (isFlagged : Bool)
    {pairs : List (Int × Int)}
    (hrange : ∀ pair ∈ pairs, c.InRange pair.1 ∧ c.InRange pair.2) {counts : PairCounts c}
    (h : counts.AtMost k) (hk : k + pairs.length < 2 ^ 32) :
    pairs.foldlM (addChecked pol isFlagged) counts = .ok (pairs.foldl (add isFlagged) counts) ∧
      (pairs.foldl (add isFlagged) counts).AtMost (k + pairs.length) := by
  have hstep : ∀ pair ∈ pairs, ∀ k (counts : PairCounts c), k + 1 < 2 ^ 32 →
      counts.AtMost k →
        counts.addChecked pol isFlagged pair = .ok (counts.add isFlagged pair) ∧
          (counts.add isFlagged pair).AtMost (k + 1) := fun pair hmem k counts hk hcounts =>
    addChecked_eq hrebin pol isFlagged hcounts hk (hrange pair hmem).1 (hrange pair hmem).2
  have hfold := Checked.foldlM_eq_ok (P := AtMost) hstep h (by rwa [Nat.mul_one])
  rwa [Nat.mul_one] at hfold

end PairCounts

end

/-! ## Passes over the samples -/

theorem SampleCounts.addFrom_range' {c : Config} (counts : SampleCounts c)
    (samples : Nat → List Int) (first count : Nat) :
    counts.addFrom first ((List.range' first count).map samples) =
      (List.range' first count).foldl
        (fun counts channel => (samples channel).foldl (add channel) counts) counts := by
  induction count generalizing counts first with
  | zero => rfl
  | succ count ih =>
      rw [List.range'_succ, List.map_cons, addFrom, ih, List.foldl_cons]

theorem SampleCounts.ofChannels_range (c : Config) (samples : Nat → List Int) (count : Nat) :
    ofChannels c ((List.range count).map samples) =
      (List.range count).foldl
        (fun counts channel => (samples channel).foldl (add channel) counts) (zero c) := by
  rw [List.range_eq_range', ofChannels, addFrom_range']

theorem PairCounts.addChannels_eq_foldl {c : Config} (flags : Vector Bool c.nchan)
    (pairs : Nat → List (Int × Int)) (counts : PairCounts c) (channels : List Nat) :
    addChannels flags pairs counts channels = channels.foldl
      (fun counts channel =>
        (pairs channel).foldl (add ((flags[channel]?).getD true)) counts) counts := by
  induction channels generalizing counts with
  | nil => rfl
  | cons channel channels ih => rw [addChannels, ih, List.foldl_cons]

/-- Only the pairs of the channels that there are matter. -/
theorem PairCounts.ofChannels_congr {c : Config} {pairs pairs' : Nat → List (Int × Int)}
    (h : ∀ channel < c.nchan, pairs channel = pairs' channel) :
    ofChannels c pairs = ofChannels c pairs' := by
  rw [ofChannels, ofChannels, addChannels_eq_foldl, addChannels_eq_foldl]
  refine List.foldl_ext _ _ _ fun counts channel hmem => ?_
  rw [h channel (List.mem_range.mp hmem)]

namespace Config

variable {c : Config} {raw : Tensor Int} {channel : Nat}

/-- All samples of a polarisation and component can be counted in a word. -/
theorem Takes.count_lt (h : c.Takes raw) :
    0 + (List.range c.nchan).length * c.samplesPerChannel < 2 ^ 32 := by
  rw [Nat.zero_add, List.length_range]
  exact h.nchan_mul_lt

theorem Takes.cell_eq (h : c.Takes raw) (pol : Polarisation) (component : Component)
    (hchannel : channel < c.nchan) {sample : Nat} (hsample : sample < c.samplesPerChannel) :
    Checked.cell raw [pol.index, component.index, channel, sample] =
      .ok (raw.sampleAt pol component channel sample) := by
  have hposition := rowMajor?_sample pol component hchannel hsample
  rw [← sampleShape, ← h.shape_eq] at hposition
  have hlt := rowMajor?_lt hposition
  rw [← raw.size_eq] at hlt
  have hget : raw.get? [pol.index, component.index, channel, sample] =
      some (raw.sampleAt pol component channel sample) := by
    rw [Tensor.sampleAt, Tensor.get?_eq_bind, hposition, Option.bind_some,
      Array.getElem?_eq_getElem hlt, Option.getD_some]
  exact Checked.cell_eq hget

theorem Takes.samplesChecked_eq (h : c.Takes raw) (pol : Polarisation) (component : Component)
    (hchannel : channel < c.nchan) :
    c.samplesChecked raw pol component channel =
      .ok ((List.range c.samplesPerChannel).map (raw.sampleAt pol component channel)) :=
  Checked.mapM_eq_ok fun _ hmem => h.cell_eq pol component hchannel (List.mem_range.mp hmem)

theorem Takes.pairsChecked_eq (h : c.Takes raw) (pol : Polarisation)
    (hchannel : channel < c.nchan) :
    c.pairsChecked raw pol channel = .ok ((List.range c.samplesPerChannel).map fun sample =>
      (raw.sampleAt pol .real channel sample, raw.sampleAt pol .imag channel sample)) := by
  refine Checked.mapM_eq_ok fun sample hmem => ?_
  have hsample := List.mem_range.mp hmem
  rw [h.cell_eq pol .real hchannel hsample, Checked.ok_bind, h.cell_eq pol .imag hchannel hsample]
  rfl

theorem flagsChecked_eq (c : Config) : c.flagsChecked = .ok c.flags := by
  have hset : ∀ channel ∈ c.nonRfiChannels, ∀ (k : Nat) (flags : Vector Bool c.nchan), k + 0 < 1 →
      True → Checked.set flags channel false = .ok (flags.setIfInBounds channel false) ∧ True :=
    fun channel hmem _ flags _ _ =>
      ⟨Checked.set_eq (lt_of_mem_nonRfiChannels hmem) false, trivial⟩
  exact (Checked.foldlM_eq_ok hset trivial Nat.zero_lt_one).1

/-- The samples of a channel that there is lie in the range. -/
theorem Takes.inRange_of_mem (h : c.Takes raw) {pol : Polarisation} {component : Component}
    (hchannel : channel < c.nchan) {sample : Int}
    (hmem : sample ∈ (List.range c.samplesPerChannel).map (raw.sampleAt pol component channel)) :
    c.InRange sample := by
  obtain ⟨position, hposition, rfl⟩ := List.mem_map.mp hmem
  exact h.sampleAt_inRange hchannel (List.mem_range.mp hposition)

/-- The first pass goes through all samples of a component. -/
theorem Takes.firstPass_eq (h : c.Takes raw) (pol : Polarisation) (component : Component) :
    c.firstPass raw pol component =
      .ok (.ofChannels c ((List.range c.nchan).map fun channel =>
        (List.range c.samplesPerChannel).map (raw.sampleAt pol component channel))) := by
  have hstep : ∀ channel ∈ List.range c.nchan, ∀ k (counts : SampleCounts c),
      k + c.samplesPerChannel < 2 ^ 32 → counts.AtMost k →
        (do
          let samples ← c.samplesChecked raw pol component channel
          samples.foldlM (SampleCounts.addChecked pol component channel) counts) =
            .ok (((List.range c.samplesPerChannel).map
              (raw.sampleAt pol component channel)).foldl (.add channel) counts) ∧
          (((List.range c.samplesPerChannel).map (raw.sampleAt pol component channel)).foldl
            (.add channel) counts).AtMost (k + c.samplesPerChannel) := by
    intro channel hmem k counts hk hcounts
    have hchannel := List.mem_range.mp hmem
    rw [h.samplesChecked_eq pol component hchannel, Checked.ok_bind]
    have hlength : ((List.range c.samplesPerChannel).map
        (raw.sampleAt pol component channel)).length = c.samplesPerChannel := by simp
    have hfold := SampleCounts.foldlM_addChecked h.nrebin_lt pol component hchannel
      (fun _ => h.inRange_of_mem hchannel) hcounts (by rwa [hlength])
    rwa [hlength] at hfold
  have hzero : (SampleCounts.zero c).AtMost 0 := ⟨Bins.atMost_zero c, Checked.atMost_zero _⟩
  have hfold := Checked.foldlM_eq_ok hstep hzero h.count_lt
  rw [firstPass, hfold.1, SampleCounts.ofChannels_range]

/-- The second pass goes through all pairs. -/
theorem Takes.secondPass_eq (h : c.Takes raw) (pol : Polarisation) :
    c.secondPass raw pol = .ok (.ofChannels c fun channel =>
      (List.range c.samplesPerChannel).map fun sample =>
        (raw.sampleAt pol .real channel sample, raw.sampleAt pol .imag channel sample)) := by
  let pairs (channel : Nat) := (List.range c.samplesPerChannel).map fun sample =>
    (raw.sampleAt pol .real channel sample, raw.sampleAt pol .imag channel sample)
  have hstep : ∀ channel ∈ List.range c.nchan, ∀ k (counts : PairCounts c),
      k + c.samplesPerChannel < 2 ^ 32 → counts.AtMost k →
        (do
          let pairs ← c.pairsChecked raw pol channel
          let isFlagged ← Checked.get c.flags channel
          pairs.foldlM (PairCounts.addChecked pol isFlagged) counts) =
            .ok ((pairs channel).foldl (.add ((c.flags[channel]?).getD true)) counts) ∧
          ((pairs channel).foldl (.add ((c.flags[channel]?).getD true)) counts).AtMost
            (k + c.samplesPerChannel) := by
    intro channel hmem k counts hk hcounts
    have hchannel := List.mem_range.mp hmem
    have hlength : (pairs channel).length = c.samplesPerChannel := by simp [pairs]
    have hrange : ∀ pair ∈ pairs channel, c.InRange pair.1 ∧ c.InRange pair.2 := by
      intro pair hpair
      obtain ⟨sample, hsample, rfl⟩ := List.mem_map.mp hpair
      have hsample := List.mem_range.mp hsample
      exact ⟨h.sampleAt_inRange hchannel hsample, h.sampleAt_inRange hchannel hsample⟩
    rw [h.pairsChecked_eq pol hchannel, Checked.ok_bind, Checked.get_eq hchannel, Checked.ok_bind,
      Vector.getElem?_eq_getElem hchannel, Option.getD_some]
    have hfold := PairCounts.foldlM_addChecked h.nrebin_lt pol c.flags[channel] hrange hcounts
      (by rwa [hlength])
    rwa [hlength] at hfold
  have hzero : (PairCounts.zero c).AtMost 0 :=
    ⟨Checked.atMost_zero _, Checked.atMost_zero _, Bins.atMost_zero c, Bins.atMost_zero c⟩
  have hfold := Checked.foldlM_eq_ok hstep hzero h.count_lt
  rw [secondPass, c.flagsChecked_eq, Checked.ok_bind, hfold.1, PairCounts.ofChannels,
    PairCounts.addChannels_eq_foldl]

variable {R : Type} [Arithmetic R]

/-- The channels of a polarisation, one after the other. -/
theorem toList_bandOf (hshape : raw.shape = c.sampleShape) (pol : Polarisation) :
    (c.bandOf (R := R) raw c.nchan c.samplesPerChannel pol).toList =
      (List.range c.nchan).map (c.channelOf raw pol) := by
  rw [← map_channelAt_range, map_channelAt_bandOf hshape fun _ => List.mem_range.mp]

/-- Both passes count what is counted without checks. -/
theorem Takes.countsChecked_eq (h : c.Takes raw) (pol : Polarisation) :
    c.countsChecked raw pol =
      .ok (c.countsOf (c.bandOf (R := R) raw c.nchan c.samplesPerChannel pol)) := by
  have hsamples : ∀ component : Component,
      (List.range c.nchan).map (fun channel =>
          (List.range c.samplesPerChannel).map (raw.sampleAt pol component channel)) =
        (c.bandOf (R := R) raw c.nchan c.samplesPerChannel pol).toList.map
          fun channel => channel.samples.get component := by
    intro component
    rw [toList_bandOf h.shape_eq, List.map_map]
    cases component <;> rfl
  have hpairs : ∀ channel < c.nchan,
      ((List.range c.samplesPerChannel).map fun sample =>
          (raw.sampleAt pol .real channel sample, raw.sampleAt pol .imag channel sample)) =
        let samples := (channelAt (c.bandOf (R := R) raw c.nchan c.samplesPerChannel pol)
          channel).samples.take c.samplesPerChannel
        samples.real.zip samples.imag := by
    intro channel hchannel
    have htake := congrArg Channel.samples (c.take_channelOf (R := R) raw pol channel)
    rw [channelAt_bandOf h.shape_eq pol hchannel]
    show _ = ((c.channelOf raw pol channel).take c.samplesPerChannel).samples.real.zip
      ((c.channelOf raw pol channel).take c.samplesPerChannel).samples.imag
    rw [htake]
    exact List.zip_map'.symm
  rw [countsChecked, h.firstPass_eq, Checked.ok_bind, h.firstPass_eq, Checked.ok_bind,
    h.secondPass_eq, Checked.ok_bind, countsOf, PairCounts.ofChannels_congr hpairs, hsamples,
    hsamples]
  rfl

end Config

end VoltageStats
