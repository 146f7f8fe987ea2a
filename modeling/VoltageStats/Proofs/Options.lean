import VoltageStats.Options.ArgumentFile
import VoltageStats.Proofs.Toml.Document

/-!
# Options as TOML documents

The document that is made of some options gives exactly these (`ofToml?_toToml`), if it has a text,
and from the text the same document is read (`parse?_savedText?`), if its doubles are canonical.
Options may be divided between two places in any way (`only_orElse_only`).
-/

namespace VoltageStats

/-! ## Values -/

namespace FieldKind

/-- The integers that have no text as a TOML value are no signed words of 64 bits. -/
theorem scalarText?_integer_eq_none_iff {n : Nat} :
    Toml.scalarText? (.integer n) = none ↔ 2 ^ 63 ≤ n := by
  rw [Toml.scalarText?]
  split
  next hinside =>
    rw [Bool.and_eq_true, decide_eq_true_eq, decide_eq_true_eq] at hinside
    exact iff_of_false (Option.some_ne_none _) (by omega)
  next houtside =>
    rw [Bool.and_eq_true, decide_eq_true_eq, decide_eq_true_eq] at houtside
    exact iff_of_true rfl (by omega)

theorem lt_of_scalarText? {n : Nat} {text : String}
    (h : Toml.scalarText? (.integer n) = some text) : n < 2 ^ 63 := by
  by_contra hlarge
  rw [scalarText?_integer_eq_none_iff.mpr (Nat.le_of_not_lt hlarge)] at h
  cases h

/-- An array has no text if one of its items has none. -/
theorem valueText?_array_eq_none_iff {items : List Toml} :
    Toml.valueText? (.array items) = none ↔ ∃ item ∈ items, Toml.scalarText? item = none := by
  rw [Toml.valueText?, Option.map_eq_none_iff, option_mapM_eq_none_iff]

/-- The items of an array that has a text have texts. -/
theorem exists_scalarText? {items : List Toml} {line : String} {item : Toml}
    (h : Toml.valueText? (.array items) = some line) (hmem : item ∈ items) :
    ∃ text, Toml.scalarText? item = some text := by
  refine Option.ne_none_iff_exists'.mp fun hnone => ?_
  rw [valueText?_array_eq_none_iff.mpr ⟨item, hmem, hnone⟩] at h
  cases h

theorem naturalOfToml?_integer {bound n : Nat} (h : n < bound) :
    naturalOfToml? bound (.integer n) = some n := by
  have hinside : ((0 : Int) ≤ n && (n : Int) < bound) = true := by
    rw [Bool.and_eq_true, decide_eq_true_eq, decide_eq_true_eq]
    omega
  rw [naturalOfToml?, if_pos hinside, Int.toNat_natCast]

/-- Items that are each read back are read back together. -/
theorem itemsOfToml?_map {α : Type} {item? : Toml → Option α} {toToml : α → Toml} {items : List α}
    (h : ∀ item ∈ items, item? (toToml item) = some item) :
    itemsOfToml? item? (.array (items.map toToml)) = some items := by
  rw [itemsOfToml?, option_mapM_eq_some_iff, List.forall₂_map_left_iff, List.forall₂_same]
  exact h

theorem itemsOfToml?_integers {bound : Nat} {items : List Nat} (h : ∀ n ∈ items, n < bound) :
    itemsOfToml? (naturalOfToml? bound) (.array (items.map fun (n : Nat) => .integer n)) =
      some items :=
  itemsOfToml?_map fun n hmem => naturalOfToml?_integer (h n hmem)

/-- A value that has a text as a TOML value is the one that is read from it. -/
theorem ofToml?_toToml {kind : FieldKind} {value : kind.Value} {line : String}
    (h : Toml.valueText? (kind.toToml value) = some line) :
    kind.ofToml? (kind.toToml value) = some value := by
  cases kind with
  | text => rfl
  | word32 =>
      rw [toToml, ofToml?, naturalOfToml?_integer (UInt32.toNat_lt value), Option.map_some,
        UInt32.ofNat_toNat]
  | word64 =>
      rw [toToml, ofToml?, naturalOfToml?_integer (UInt64.toNat_lt value), Option.map_some,
        UInt64.ofNat_toNat]
  | double => rfl
  | doubles =>
      have hitems : itemsOfToml? doubleOfToml? (.array (value.toList.map .real)) =
          some value.toList := itemsOfToml?_map fun _ _ => rfl
      rw [toToml, ofToml?, hitems, Option.map_some, Array.toArray_toList]
  | words =>
      have hitems : itemsOfToml? (naturalOfToml? (2 ^ 32)) (words.toToml value) =
          some (value.toList.map UInt32.toNat) := by
        rw [toToml, ← itemsOfToml?_integers, List.map_map]
        · rfl
        · intro n hmem
          obtain ⟨word, -, rfl⟩ := List.mem_map.mp hmem
          exact UInt32.toNat_lt word
      have hword : UInt32.ofNat ∘ UInt32.toNat = id := funext fun n => UInt32.ofNat_toNat
      rw [ofToml?, hitems, Option.map_some, List.map_map, hword, List.map_id, Array.toArray_toList]
  | channels =>
      rw [ofToml?, toToml]
      refine itemsOfToml?_integers fun n hmem => ?_
      obtain ⟨text, htext⟩ := exists_scalarText? h (List.mem_map_of_mem hmem)
      exact (lt_of_scalarText? htext).trans (by norm_num)

/-- Whether the doubles in a value are canonical. -/
def IsCanonical : (kind : FieldKind) → kind.Value → Prop
  | double, x => x.IsCanonical
  | doubles, xs => ∀ x ∈ xs, x.IsCanonical
  | _, _ => True

/-- Canonical values are written as plain ones. -/
theorem isPlain_toToml {kind : FieldKind} {value : kind.Value} (h : kind.IsCanonical value) :
    Toml.IsPlain (kind.toToml value) := by
  cases kind with
  | text => trivial
  | word32 => trivial
  | word64 => trivial
  | double => exact h
  | doubles =>
      intro item hitem
      obtain ⟨x, hx, rfl⟩ := List.mem_map.mp hitem
      exact h x (Array.mem_toList_iff.mp hx)
  | words =>
      intro item hitem
      obtain ⟨n, -, rfl⟩ := List.mem_map.mp hitem
      trivial
  | channels =>
      intro item hitem
      obtain ⟨n, -, rfl⟩ := List.mem_map.mp hitem
      trivial

end FieldKind

/-! ## Documents -/

namespace GivenOptions

open GeneratorOption

theorem nodup_name : (all.map GeneratorOption.name).Nodup := by decide +kernel

/-- Among entries with different names each name leads to its own. -/
theorem lookup_filterMap {α κ β : Type} [BEq κ] [LawfulBEq κ] {name : α → κ} {items : List α}
    {item : α} (hnodup : (items.map name).Nodup) (hmem : item ∈ items) (value? : α → Option β) :
    (items.filterMap fun item => (value? item).map fun value => (name item, value)).lookup
      (name item) = value? item := by
  induction items with
  | nil => cases hmem
  | cons first rest ih =>
      rw [List.map_cons, List.nodup_cons] at hnodup
      rcases List.mem_cons.mp hmem with rfl | hmem
      · cases hvalue : value? item with
        | some value => simp [hvalue]
        | none =>
            -- No later entry has the name.
            rw [List.filterMap_cons_none (by simp [hvalue]), List.lookup_eq_none_iff]
            intro entry hentry
            obtain ⟨other, hother, hsome⟩ := List.mem_filterMap.mp hentry
            obtain ⟨value, -, rfl⟩ := Option.map_eq_some_iff.mp hsome
            have hne : name item ≠ name other := fun heq =>
              hnodup.1 (heq ▸ List.mem_map_of_mem hother)
            simpa using hne
      · have hne : name item ≠ name first := fun heq =>
          hnodup.1 (heq ▸ List.mem_map_of_mem hmem)
        have hrest := ih hnodup.2 hmem
        cases hvalue : value? first with
        | none => simpa [List.filterMap_cons, hvalue] using hrest
        | some value =>
            have hother : (name item == name first) = false := beq_false_of_ne hne
            simpa [List.filterMap_cons, hvalue, List.lookup_cons, hother] using hrest

/-- Entries that are made of items have the names of some of these, in their order. -/
theorem sublist_map_filterMap {α κ β : Type} (name : α → κ) (items : List α)
    (value? : α → Option β) :
    ((items.filterMap fun item => (value? item).map fun value => (name item, value)).map
      Prod.fst).Sublist (items.map name) := by
  induction items with
  | nil => exact .slnil
  | cons item rest ih =>
      cases hvalue : value? item with
      | none =>
          rw [List.filterMap_cons_none (by rw [hvalue]; rfl)]
          exact ih.cons _
      | some value =>
          rw [List.filterMap_cons_some (by rw [hvalue]; rfl)]
          exact ih.cons_cons _

theorem mem_toToml {given : GivenOptions} {entry : String × Toml} :
    entry ∈ given.toToml ↔
      ∃ o value, given.value? o = some value ∧ (o.name, o.kind.toToml value) = entry := by
  simp [toToml, mem_all]

theorem lookup_toToml (given : GivenOptions) (o : GeneratorOption) :
    given.toToml.lookup o.name = (given.value? o).map o.kind.toToml := by
  have h := lookup_filterMap (β := Toml) nodup_name (mem_all o) fun o =>
    (given.value? o).map o.kind.toToml
  simp only [Option.map_map] at h
  exact h

theorem collect?_eq_some_iff {read? : (o : GeneratorOption) → Option (Option o.Value)}
    {given : GivenOptions} :
    collect? read? = some given ↔ ∀ o, read? o = some (given.value? o) := by
  constructor
  · intro h o
    obtain ⟨hall, heq⟩ := Option.ite_none_right_eq_some.mp h
    obtain ⟨value, hvalue⟩ := Option.isSome_iff_exists.mp (List.all_eq_true.mp hall o (mem_all o))
    have hgiven : (read? o).join = given.value? o := congrArg (·.value? o) (Option.some.inj heq)
    rw [← hgiven, hvalue, Option.join_some]
  · intro h
    have hall : (all.all fun o => (read? o).isSome) = true :=
      List.all_eq_true.mpr fun o _ => by rw [h o]; rfl
    rw [collect?, if_pos hall]
    refine congrArg some (GivenOptions.ext fun o => ?_)
    show (read? o).join = given.value? o
    rw [h o, Option.join_some]

/-- Options that have a text are given by the document that is made of them. -/
theorem ofToml?_toToml {given : GivenOptions} {text : String}
    (h : given.savedText? = some text) : ofToml? given.toToml = some given := by
  obtain ⟨lines, hlines, -⟩ := Option.map_eq_some_iff.mp h
  rw [ofToml?, collect?_eq_some_iff]
  intro o
  rw [lookup_toToml]
  cases hvalue : given.value? o with
  | none => rfl
  | some value =>
      have hentry : (o.name, o.kind.toToml value) ∈ given.toToml :=
        mem_toToml.mpr ⟨o, value, hvalue, rfl⟩
      obtain ⟨entry, -, hsome⟩ :=
        exists_of_mem_forall₂ (option_mapM_eq_some_iff.mp hlines).flip hentry
      obtain ⟨line, hline, -⟩ := Option.map_eq_some_iff.mp hsome
      show (o.kind.ofToml? (o.kind.toToml value)).map some = some (some value)
      rw [FieldKind.ofToml?_toToml hline, Option.map_some]

/-- Whether the doubles among some options are canonical. -/
def IsCanonical (given : GivenOptions) : Prop :=
  ∀ o value, given.value? o = some value → o.kind.IsCanonical value

/-- The names of options need no quotes. -/
theorem isPlainName_name (o : GeneratorOption) : Toml.IsPlainName o.name := by
  have hname : all.all (fun o =>
      o.name.toList ≠ [] && o.name.toList.all Toml.isNameChar) = true := by decide +kernel
  have ho := List.all_eq_true.mp hname o (mem_all o)
  rw [Bool.and_eq_true, decide_eq_true_eq] at ho
  exact ⟨ho.1, List.all_eq_true.mp ho.2⟩

/-- The document of canonical options can be read back. -/
theorem IsCanonical.isPlainTable {given : GivenOptions} (h : given.IsCanonical) :
    Toml.IsPlainTable given.toToml := by
  refine ⟨?_, ?_, ?_⟩
  · intro entry hentry
    obtain ⟨o, value, -, rfl⟩ := mem_toToml.mp hentry
    exact isPlainName_name o
  · have hnames := sublist_map_filterMap GeneratorOption.name all fun o =>
      (given.value? o).map o.kind.toToml
    simp only [Option.map_map] at hnames
    exact hnames.nodup nodup_name
  · intro entry hentry
    obtain ⟨o, value, hvalue, rfl⟩ := mem_toToml.mp hentry
    exact FieldKind.isPlain_toToml (h o value hvalue)

/-- The text of canonical options is read as the document that it was made from. -/
theorem parse?_savedText? {given : GivenOptions} {text : String} (hgiven : given.IsCanonical)
    (h : given.savedText? = some text) : Toml.parse? text = some given.toToml :=
  Toml.parse?_tableText? hgiven.isPlainTable h

/-! ## Options in two places -/

/-- Options that come from two places are canonical if they are in both. -/
theorem IsCanonical.orElse {first second : GivenOptions} (hfirst : first.IsCanonical)
    (hsecond : second.IsCanonical) : (first.orElse second).IsCanonical := by
  intro o value h
  rcases Option.or_eq_some_iff.mp h with h | ⟨-, h⟩
  · exact hfirst o value h
  · exact hsecond o value h

/-- The given options among some. -/
def only (given : GivenOptions) (chosen : GeneratorOption → Bool) : GivenOptions :=
  ⟨fun o => if chosen o then given.value? o else .none⟩

/-- However options are divided between two places, together they are the same. An option may
stand in both. -/
theorem only_orElse_only (given : GivenOptions) {first second : GeneratorOption → Bool}
    (h : ∀ o, first o || second o) : (given.only first).orElse (given.only second) = given := by
  ext1 o
  have ho := h o
  simp only [value?_orElse, only]
  cases hfirst : first o with
  | true => cases hvalue : given.value? o <;> simp
  | false =>
      rw [hfirst, Bool.false_or] at ho
      simp [ho]

end GivenOptions

end VoltageStats
