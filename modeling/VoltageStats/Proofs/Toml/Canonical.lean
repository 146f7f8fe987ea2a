import VoltageStats.Proofs.Binary.Canonical
import VoltageStats.Toml.Reader

/-!
# Canonical doubles in TOML documents

The doubles that are values in the table of a document are canonical (`isCanonical_of_parse?`). They
are rounded decimals, or one of few words.
-/

namespace VoltageStats.Toml

variable {fuel depth : Nat} {word input rest : List Char} {value : Toml} {t u : Table}

/-! ## Values -/

/-- Whether a value is canonical, if it is a double. -/
def IsCanonical : Toml → Prop
  | real x => x.IsCanonical
  | _ => True

theorem exists_of_decimal? {negative : Bool} {x : Binary64}
    (h : decimal? negative word = some x) :
    ∃ digits exponent, Binary64.ofDecimal negative digits exponent = x := by
  unfold decimal? at h
  dsimp only at h
  split at h
  next => cases h
  next =>
    obtain ⟨whole, -, h⟩ := Option.bind_eq_some_iff.mp h
    split at h
    all_goals
      obtain ⟨fraction, -, h⟩ := Option.bind_eq_some_iff.mp h
      split at h
      all_goals
        obtain ⟨power, -, h⟩ := Option.bind_eq_some_iff.mp h
        exact ⟨_, _, Option.some.inj h⟩

theorem isCanonical_of_real? {x : Binary64} (h : real? word = some x) : x.IsCanonical := by
  unfold real? at h
  dsimp only at h
  split at h
  next =>
    obtain rfl := Option.some.inj h
    exact Binary64.isCanonical_infinity _
  next =>
    split at h
    next =>
      obtain rfl := Option.some.inj h
      exact Binary64.isCanonical_nan _
    next =>
      obtain ⟨y, hy, h⟩ := Option.bind_eq_some_iff.mp h
      obtain ⟨digits, exponent, rfl⟩ := exists_of_decimal? hy
      split at h
      next => cases h
      next =>
        obtain rfl := Option.some.inj h
        exact Binary64.isCanonical_ofDecimal _ _ _

theorem isCanonical_of_wordValue? (h : wordValue? word = some value) : value.IsCanonical := by
  unfold wordValue? at h
  split at h
  next => cases h; trivial
  next =>
    split at h
    next => cases h; trivial
    next =>
      split at h
      next => cases h; trivial
      next =>
        split at h
        next =>
          obtain ⟨-, h⟩ := Option.ite_none_right_eq_some.mp h
          cases h
          trivial
        next hreal =>
          cases h
          exact isCanonical_of_real? hreal
        next => cases h

theorem isCanonical_of_word? (h : word? input = some (value, rest)) : value.IsCanonical := by
  -- Only a date may be followed by a blank and a further word.
  have hvalue : ∀ word after, ((wordValue? word).bind fun value => some (value, after)) =
      some (value, rest) → value.IsCanonical := by
    intro word after h
    obtain ⟨_, hvalue, h⟩ := Option.bind_eq_some_iff.mp h
    cases h
    exact isCanonical_of_wordValue? hvalue
  unfold word? at h
  dsimp only at h
  split at h
  next =>
    split at h
    next =>
      obtain ⟨-, h⟩ := Option.ite_none_right_eq_some.mp h
      cases h
      trivial
    next => exact hvalue _ _ h
  next => exact hvalue _ _ h

/-- Of the values only words are doubles. -/
theorem isCanonical_of_value? (h : value? fuel depth input = some (value, rest)) :
    value.IsCanonical := by
  unfold value? at h
  split at h
  next => cases h
  next =>
    split at h
    next =>
      obtain ⟨_, -, h⟩ := Option.map_eq_some_iff.mp h
      cases h
      trivial
    next =>
      dsimp only at h
      split at h
      all_goals
        obtain ⟨_, -, h⟩ := Option.bind_eq_some_iff.mp h
        obtain ⟨table, htable, h⟩ := Option.bind_eq_some_iff.mp h
        obtain ⟨_, -, rfl⟩ := Option.map_eq_some_iff.mp htable
        cases h
        trivial
    next =>
      split at h
      next =>
        obtain ⟨_, -, h⟩ := Option.map_eq_some_iff.mp h
        cases h
        trivial
      next => exact isCanonical_of_word? h

/-! ## Tables -/

/-- Whether the doubles among the values of a table are canonical. -/
def Table.IsCanonical (t : Table) : Prop := ∀ entry ∈ t, entry.2.IsCanonical

/-- Whether the double that a statement puts into a table is canonical, if it does. -/
def Statement.IsCanonical : Statement → Prop
  | entry _ value => value.IsCanonical
  | _ => True

theorem isCanonical_of_statement? {statement : Statement}
    (h : statement? input = some (statement, rest)) : statement.IsCanonical := by
  unfold statement? at h
  split at h
  next =>
    obtain ⟨⟨path, after⟩, -, h⟩ := Option.bind_eq_some_iff.mp h
    dsimp only at h
    split at h
    next =>
      obtain ⟨_, -, h⟩ := Option.bind_eq_some_iff.mp h
      cases h
      trivial
    next => cases h
  next =>
    obtain ⟨⟨path, after⟩, -, h⟩ := Option.bind_eq_some_iff.mp h
    dsimp only at h
    split at h
    next =>
      obtain ⟨_, -, h⟩ := Option.bind_eq_some_iff.mp h
      cases h
      trivial
    next => cases h
  next =>
    obtain ⟨⟨key, after⟩, -, h⟩ := Option.bind_eq_some_iff.mp h
    dsimp only at h
    split at h
    next =>
      obtain ⟨⟨value, after⟩, hvalue, h⟩ := Option.bind_eq_some_iff.mp h
      obtain ⟨_, -, h⟩ := Option.bind_eq_some_iff.mp h
      cases h
      exact isCanonical_of_value? hvalue
    next => cases h

theorem isCanonical_of_statements? {statements : List Statement}
    (h : statements? fuel input = some statements) :
    ∀ statement ∈ statements, statement.IsCanonical := by
  induction fuel generalizing input statements with
  | zero => cases h
  | succ fuel ih =>
      unfold statements? at h
      split at h
      next =>
        obtain rfl := Option.some.inj h
        simp
      next => exact ih h
      next =>
        obtain ⟨⟨statement, after⟩, hstatement, h⟩ := Option.bind_eq_some_iff.mp h
        obtain ⟨others, hothers, h⟩ := Option.bind_eq_some_iff.mp h
        obtain rfl := Option.some.inj h
        exact List.forall_mem_cons.mpr ⟨isCanonical_of_statement? hstatement, ih hothers⟩

/-- A table with a further entry. -/
theorem Table.IsCanonical.append (ht : t.IsCanonical) {name : String} (hvalue : value.IsCanonical) :
    Table.IsCanonical (t ++ [(name, value)]) :=
  List.forall_mem_append.mpr ⟨ht, List.forall_mem_singleton.mpr hvalue⟩

theorem Table.IsCanonical.replace (ht : t.IsCanonical) {name : String}
    (hvalue : value.IsCanonical) : Table.IsCanonical (replace name value t) := by
  intro entry hentry
  obtain ⟨old, hold, rfl⟩ := List.mem_map.mp hentry
  split_ifs
  · exact hvalue
  · exact ht old hold

theorem Table.IsCanonical.insert? (ht : t.IsCanonical) (hvalue : value.IsCanonical)
    {key : List String} (h : insert? value key t = some u) : u.IsCanonical := by
  unfold Toml.insert? at h
  split at h
  next => cases h
  next =>
    split at h
    next => cases h
    next =>
      obtain rfl := Option.some.inj h
      exact ht.append hvalue
  next =>
    split at h
    next =>
      obtain ⟨sub, -, rfl⟩ := Option.map_eq_some_iff.mp h
      exact ht.append trivial
    next =>
      split at h
      next =>
        obtain ⟨sub, -, rfl⟩ := Option.map_eq_some_iff.mp h
        exact ht.replace trivial
      next => cases h
    next =>
      dsimp only at h
      split at h
      next => cases h
      next =>
        obtain ⟨last, -, h⟩ := Option.bind_eq_some_iff.mp h
        obtain ⟨sub, -, h⟩ := Option.bind_eq_some_iff.mp h
        obtain rfl := Option.some.inj h
        exact ht.replace trivial
    next => cases h

/-- A change further inside puts nothing but a table or an array of tables into a table. -/
theorem Table.IsCanonical.within? (ht : t.IsCanonical) {change : Table → Option Table}
    (hchange : ∀ u, change t = some u → u.IsCanonical) {path : List String}
    (h : within? change path t = some u) : u.IsCanonical := by
  unfold Toml.within? at h
  split at h
  next => exact hchange u h
  next =>
    split at h
    next =>
      obtain ⟨sub, -, rfl⟩ := Option.map_eq_some_iff.mp h
      exact ht.append trivial
    next =>
      split at h
      next => cases h
      next =>
        obtain ⟨sub, -, rfl⟩ := Option.map_eq_some_iff.mp h
        exact ht.replace trivial
    next =>
      obtain ⟨last, -, h⟩ := Option.bind_eq_some_iff.mp h
      obtain ⟨sub, -, h⟩ := Option.bind_eq_some_iff.mp h
      obtain rfl := Option.some.inj h
      exact ht.replace trivial
    next => cases h

theorem Table.IsCanonical.openTable? (ht : t.IsCanonical) {name : String}
    (h : openTable? name t = some u) : u.IsCanonical := by
  unfold Toml.openTable? at h
  split at h
  next =>
    obtain rfl := Option.some.inj h
    exact ht.append trivial
  next =>
    obtain rfl := Option.some.inj h
    exact ht.replace trivial
  next => cases h

theorem Table.IsCanonical.openItem? (ht : t.IsCanonical) {name : String}
    (h : openItem? name t = some u) : u.IsCanonical := by
  unfold Toml.openItem? at h
  split at h
  next =>
    obtain rfl := Option.some.inj h
    exact ht.append trivial
  next =>
    obtain rfl := Option.some.inj h
    exact ht.replace trivial
  next => cases h

/-- Statements put nothing but their own values and tables into a table. -/
theorem Table.IsCanonical.extend? {statements : List Statement} {path : List String}
    (ht : t.IsCanonical) (hstatements : ∀ statement ∈ statements, statement.IsCanonical)
    (h : extend? path t statements = some u) : u.IsCanonical := by
  induction statements generalizing path t with
  | nil =>
      obtain rfl := Option.some.inj h
      exact ht
  | cons statement statements ih =>
      obtain ⟨hstatement, hothers⟩ := List.forall_mem_cons.mp hstatements
      cases statement with
      | entry key value =>
          obtain ⟨next, hnext, h⟩ := Option.bind_eq_some_iff.mp h
          exact ih (ht.within? (fun _ => ht.insert? hstatement) hnext) hothers h
      | header opened =>
          obtain ⟨name, -, h⟩ := Option.bind_eq_some_iff.mp h
          obtain ⟨next, hnext, h⟩ := Option.bind_eq_some_iff.mp h
          exact ih (ht.within? (fun _ => ht.openTable?) hnext) hothers h
      | item opened =>
          obtain ⟨name, -, h⟩ := Option.bind_eq_some_iff.mp h
          obtain ⟨next, hnext, h⟩ := Option.bind_eq_some_iff.mp h
          exact ih (ht.within? (fun _ => ht.openItem?) hnext) hothers h

/-- A text holds only canonical doubles. -/
theorem isCanonical_of_parse? {text : String} (h : parse? text = some t) : t.IsCanonical := by
  obtain ⟨statements, hstatements, h⟩ := Option.bind_eq_some_iff.mp h
  have hempty : Table.IsCanonical [] := by simp [Table.IsCanonical]
  exact hempty.extend? (isCanonical_of_statements? hstatements) h

end VoltageStats.Toml
