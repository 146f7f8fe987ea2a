import VoltageStats.Json.Reader
import VoltageStats.Proofs.Binary.Canonical

/-!
# Canonical doubles in JSON texts

The doubles that are members or items of what a text holds are finite, and hence canonical
(`hasCanonicalParts_of_parse?`).
-/

namespace VoltageStats.Json

variable {fuel : Nat} {input rest : List Char} {value : Json}

/-- Whether a value is canonical, if it is a double. -/
def IsCanonical : Json → Prop
  | real x => x.IsCanonical
  | _ => True

/-- Whether the doubles among the parts of a value are canonical. -/
def HasCanonicalParts : Json → Prop
  | object members => ∀ m ∈ members, m.2.IsCanonical
  | array items => ∀ item ∈ items, item.IsCanonical
  | _ => True

theorem isCanonical_of_scaled? {negative : Bool} {significand : Nat} {exponent : Int}
    {x : Binary64} (h : scaled? negative significand exponent = some x) : x.IsCanonical := by
  unfold scaled? at h
  dsimp only at h
  split at h
  next hzero =>
    obtain rfl := Option.some.inj h
    rw [hzero]
    exact Binary64.isCanonical_signed rfl negative
  next =>
    split at h
    next => cases h
    next =>
      obtain ⟨hfinite, h⟩ := Option.ite_none_right_eq_some.mp h
      obtain rfl := Option.some.inj h
      exact Binary64.isCanonical_signed hfinite negative

theorem isCanonical_numberOf (negative : Bool) (whole : List Char) (fraction : Option (List Char))
    (exponent : Option (Bool × List Char)) :
    (numberOf negative whole fraction exponent).IsCanonical ∧
      (numberOf negative whole fraction exponent).HasCanonicalParts := by
  unfold numberOf
  dsimp only
  split
  next => exact ⟨trivial, trivial⟩
  next =>
    split
    next => exact ⟨trivial, trivial⟩
    next =>
      -- With and without an exponent, one that is too large is settled without a power.
      split
      all_goals
        split
        next =>
          split
          next => exact ⟨Binary64.isCanonical_signed rfl negative, trivial⟩
          next => exact ⟨trivial, trivial⟩
        next =>
          split
          next hscaled => exact ⟨isCanonical_of_scaled? hscaled, trivial⟩
          next => exact ⟨trivial, trivial⟩

theorem isCanonical_of_number? (h : number? input = some (value, rest)) :
    value.IsCanonical ∧ value.HasCanonicalParts := by
  unfold number? at h
  dsimp only at h
  obtain ⟨⟨whole, after⟩, -, h⟩ := Option.bind_eq_some_iff.mp h
  split at h
  next => cases h
  next =>
    split at h
    all_goals
      obtain ⟨⟨fraction, after⟩, -, h⟩ := Option.bind_eq_some_iff.mp h
      dsimp only at h
      split at h
      next =>
        split at h
        all_goals
          obtain ⟨⟨exponent, after⟩, -, h⟩ := Option.bind_eq_some_iff.mp h
          cases h
          exact isCanonical_numberOf _ _ _ _
      next =>
        obtain ⟨⟨exponent, after⟩, -, h⟩ := Option.bind_eq_some_iff.mp h
        cases h
        exact isCanonical_numberOf _ _ _ _

/-- A value has parts that are read one by one, or it has none. -/
theorem value?_cases (h : value? fuel input = some (value, rest)) :
    (∃ fuel input items, items? fuel input = some (items, rest) ∧ value = .array items) ∨
      (∃ fuel input members, members? fuel input = some (members, rest) ∧ value = .object members) ∨
      value.IsCanonical ∧ value.HasCanonicalParts := by
  unfold value? at h
  split at h
  next => cases h
  next =>
    split at h
    next =>
      obtain ⟨⟨content, after⟩, -, h⟩ := Option.map_eq_some_iff.mp h
      cases h
      cases content <;> exact .inr (.inr ⟨trivial, trivial⟩)
    next =>
      split at h
      next =>
        cases h
        exact .inr (.inr ⟨trivial, by simp [HasCanonicalParts]⟩)
      next =>
        obtain ⟨⟨items, after⟩, hitems, h⟩ := Option.map_eq_some_iff.mp h
        cases h
        exact .inl ⟨_, _, items, hitems, rfl⟩
    next =>
      split at h
      next =>
        cases h
        exact .inr (.inr ⟨trivial, by simp [HasCanonicalParts]⟩)
      next =>
        obtain ⟨⟨members, after⟩, hmembers, h⟩ := Option.map_eq_some_iff.mp h
        cases h
        exact .inr (.inl ⟨_, _, members, hmembers, rfl⟩)
    next =>
      split at h
      next => cases h; exact .inr (.inr ⟨trivial, trivial⟩)
      next => cases h; exact .inr (.inr ⟨trivial, trivial⟩)
      next => cases h; exact .inr (.inr ⟨trivial, trivial⟩)
      next => exact .inr (.inr (isCanonical_of_number? h))

theorem isCanonical_of_value? (h : value? fuel input = some (value, rest)) :
    value.IsCanonical := by
  rcases value?_cases h with ⟨_, _, _, -, rfl⟩ | ⟨_, _, _, -, rfl⟩ | ⟨hvalue, -⟩
  · trivial
  · trivial
  · exact hvalue

theorem isCanonical_of_items? {items : List Json} (h : items? fuel input = some (items, rest)) :
    ∀ item ∈ items, item.IsCanonical := by
  induction fuel generalizing input rest items with
  | zero => cases h
  | succ fuel ih =>
      obtain ⟨⟨item, after⟩, hitem, h⟩ := Option.bind_eq_some_iff.mp h
      dsimp only at h
      split at h
      next =>
        obtain ⟨⟨others, after⟩, hothers, h⟩ := Option.map_eq_some_iff.mp h
        cases h
        exact List.forall_mem_cons.mpr ⟨isCanonical_of_value? hitem, ih hothers⟩
      next =>
        cases h
        exact List.forall_mem_singleton.mpr (isCanonical_of_value? hitem)
      next => cases h

theorem isCanonical_of_members? {members : List (Option String × Json)}
    (h : members? fuel input = some (members, rest)) : ∀ m ∈ members, m.2.IsCanonical := by
  induction fuel generalizing input rest members with
  | zero => cases h
  | succ fuel ih =>
      unfold members? at h
      split at h
      next =>
        obtain ⟨⟨name, after⟩, -, h⟩ := Option.bind_eq_some_iff.mp h
        dsimp only at h
        split at h
        next =>
          obtain ⟨⟨value, after⟩, hvalue, h⟩ := Option.bind_eq_some_iff.mp h
          dsimp only at h
          split at h
          next =>
            obtain ⟨⟨others, after⟩, hothers, h⟩ := Option.map_eq_some_iff.mp h
            cases h
            exact List.forall_mem_cons.mpr ⟨isCanonical_of_value? hvalue, ih hothers⟩
          next =>
            cases h
            exact List.forall_mem_singleton.mpr (isCanonical_of_value? hvalue)
          next => cases h
        next => cases h
      next => cases h

/-- A text holds only canonical doubles. -/
theorem hasCanonicalParts_of_parse? {text : String} (h : parse? text = some value) :
    value.HasCanonicalParts := by
  obtain ⟨⟨value', rest⟩, hvalue, h⟩ := Option.bind_eq_some_iff.mp h
  obtain ⟨-, h⟩ := Option.ite_none_right_eq_some.mp h
  obtain rfl := Option.some.inj h
  rcases value?_cases hvalue with
    ⟨_, _, _, hitems, rfl⟩ | ⟨_, _, _, hmembers, rfl⟩ | ⟨-, hparts⟩
  · exact isCanonical_of_items? hitems
  · exact isCanonical_of_members? hmembers
  · exact hparts

end VoltageStats.Json
