import VoltageStats.Proofs.Toml.Value

/-!
# TOML documents read back

A table with plain names, which are all different, and plain values is read as it was written
(`parse?_tableText?`).
-/

namespace VoltageStats.Toml

variable {name line : String} {rest : List Char} {t : Table}

/-- Whether a name needs no quotes. -/
structure IsPlainName (name : String) : Prop where
  ne_nil : name.toList ≠ []
  chars : ∀ c ∈ name.toList, isNameChar c

/-- Whether a table is one that a text can stand for. -/
structure IsPlainTable (t : Table) : Prop where
  names : ∀ entry ∈ t, IsPlainName entry.1
  nodup : (t.map Prod.fst).Nodup
  values : ∀ entry ∈ t, IsPlain entry.2

/-! ## Statements -/

/-- A name starts with a character that starts neither a header nor a comment. -/
theorem IsPlainName.starts (hname : IsPlainName name) :
    ∃ c tail, name.toList = c :: tail ∧ Opens c ∧ ∀ d, ¬ isNameChar d → c ≠ d := by
  obtain ⟨c, tail, heq⟩ := List.exists_cons_of_ne_nil hname.ne_nil
  have hc : isNameChar c := hname.chars c (by simp [heq])
  refine ⟨c, tail, heq, .inr (.inr (by simp [isWordChar, hc])), ?_⟩
  rintro d hd rfl
  exact hd hc

theorem skipBlanks_starts {c : Char} {tail : List Char} (hc : c = '[' ∨ Opens c) :
    skipBlanks (c :: tail) = c :: tail := by
  rw [skipBlanks, List.dropWhile_cons_of_neg (not_isBlank_of_starts hc)]

theorem name?_name (hname : IsPlainName name) :
    name? (name.toList ++ ' ' :: rest) = some (name, ' ' :: rest) := by
  obtain ⟨c, tail, heq, -, hne⟩ := hname.starts
  have hspan : (name.toList ++ ' ' :: rest).span isNameChar = (name.toList, ' ' :: rest) :=
    span_append hname.chars fun d hd => by
      obtain rfl := Option.some.inj hd
      decide
  have hquote : ¬ ((name.toList ++ ' ' :: rest).head? = some '"' ||
      (name.toList ++ ' ' :: rest).head? = some '\'') := by
    simp [heq, hne '"' (by decide), hne '\'' (by decide)]
  rw [name?, if_neg hquote, hspan]
  simp [hname.ne_nil]

theorem key?_name (hname : IsPlainName name) :
    key? (nestingLimit - 1) (name.toList ++ ' ' :: '=' :: rest) = some ([name], '=' :: rest) := by
  obtain ⟨c, tail, heq, hopens, -⟩ := hname.starts
  have hskip : skipBlanks (name.toList ++ ' ' :: '=' :: rest) =
      name.toList ++ ' ' :: '=' :: rest := by
    rw [heq, List.cons_append, skipBlanks_starts (.inr hopens)]
  show key? (78 + 1) _ = _
  rw [key?, hskip, name?_name hname]
  rfl

/-- The line of an entry. -/
def entryLine (name line : String) : String := name ++ " = " ++ line ++ "\n"

theorem toList_entryLine (name line : String) : (entryLine name line).toList ++ rest =
    name.toList ++ ' ' :: '=' :: ' ' :: (line.toList ++ '\n' :: rest) := by
  simp [entryLine, String.toList_append]

theorem skipBlanks_entryLine (hname : IsPlainName name) (line : String) :
    skipBlanks ((entryLine name line).toList ++ rest) = (entryLine name line).toList ++ rest := by
  obtain ⟨c, tail, heq, hopens, -⟩ := hname.starts
  rw [toList_entryLine, heq, List.cons_append, skipBlanks_starts (.inr hopens)]

/-- The line of an entry holds a statement. -/
theorem lineEnd?_entryLine (hname : IsPlainName name) (line : String) :
    lineEnd? ((entryLine name line).toList ++ rest) = none := by
  obtain ⟨c, tail, heq, -, hne⟩ := hname.starts
  have hskip : skipBlanks ((entryLine name line).toList ++ rest) =
      (entryLine name line).toList ++ rest := skipBlanks_entryLine hname line
  have hcomment : c ≠ '#' := hne '#' (by decide)
  have hline : c ≠ '\n' := hne '\n' (by decide)
  have hreturn : c ≠ '\r' := hne '\r' (by decide)
  rw [toList_entryLine, heq, List.cons_append] at hskip ⊢
  simp [lineEnd?, hskip, hcomment, newline?, hline, hreturn]

theorem statement?_entryLine {value : Toml} (hname : IsPlainName name)
    (hvalue : Reads (line.toList.length + 2) 1 line.toList value) :
    statement? ((entryLine name line).toList ++ rest) = some (.entry [name] value, rest) := by
  obtain ⟨c, tail, heq, -, hne⟩ := hname.starts
  have hbracket : c ≠ '[' := hne '[' (by decide)
  have hkey : key? (nestingLimit - 1)
      (name.toList ++ ' ' :: '=' :: ' ' :: (line.toList ++ '\n' :: rest)) =
        some ([name], '=' :: ' ' :: (line.toList ++ '\n' :: rest)) := key?_name hname
  have hskip : skipBlanks (' ' :: (line.toList ++ '\n' :: rest)) = line.toList ++ '\n' :: rest := by
    obtain ⟨d, tail, hline, hd⟩ := hvalue.starts
    rw [hline]
    exact skipBlanks_starts hd
  have hread : value? (2 * (line.toList ++ '\n' :: rest).length + 2) (nestingLimit - 1)
      (line.toList ++ '\n' :: rest) = some (value, '\n' :: rest) := by
    refine hvalue.value_eq ?_ (by decide) fun d hd => .inl (Option.some.inj hd).symm
    rw [List.length_append]
    omega
  rw [toList_entryLine]
  rw [heq, List.cons_append] at hkey ⊢
  unfold statement?
  split
  next h => exact absurd (List.cons.inj h).1 hbracket
  next h => exact absurd (List.cons.inj h).1 hbracket
  next =>
    rw [hkey]
    simp only [Option.bind_eq_bind, Option.bind_some, hskip, hread]
    rfl

/-- Whether a line is that of an entry. -/
def IsEntryLine (entry : String × Toml) (text : String) : Prop :=
  ∃ line, text = entryLine entry.1 line ∧
    Reads (line.toList.length + 2) 1 line.toList entry.2

/-- Each line is read as the entry that it was written for. -/
theorem statements?_entryLines {texts : List String} {fuel : Nat}
    (hnames : ∀ entry ∈ t, IsPlainName entry.1) (htexts : List.Forall₂ IsEntryLine t texts)
    (hfuel : t.length < fuel) :
    statements? fuel (texts.flatMap String.toList) =
      some (t.map fun entry => .entry [entry.1] entry.2) := by
  induction htexts generalizing fuel with
  | nil =>
      obtain ⟨fuel, rfl⟩ := Nat.exists_eq_add_of_le' hfuel
      rfl
  | @cons entry text t texts htext _ ih =>
      obtain ⟨fuel, rfl⟩ := Nat.exists_eq_add_of_le' (Nat.zero_lt_of_lt hfuel)
      obtain ⟨line, rfl, hvalue⟩ := htext
      have hname := hnames entry List.mem_cons_self
      have hrest := ih (fun other h => hnames other (List.mem_cons_of_mem _ h))
        (Nat.lt_of_succ_lt_succ hfuel)
      rw [List.flatMap_cons, statements?, lineEnd?_entryLine hname line,
        skipBlanks_entryLine hname line]
      simp only [statement?_entryLine hname hvalue, Option.bind_eq_bind, Option.bind_some, hrest]
      rfl

/-! ## Documents -/

/-- Entries with different names are put into a table one after the other. -/
theorem extend?_entries {root : Table} (hnodup : ((root ++ t).map Prod.fst).Nodup) :
    extend? [] root (t.map fun entry => .entry [entry.1] entry.2) = some (root ++ t) := by
  -- The entries that have been read are in the root, so the induction is about all roots.
  induction t generalizing root with
  | nil => simp [extend?]
  | cons entry t ih =>
      have hnew : root.lookup entry.1 = none := by
        rw [List.lookup_eq_none_iff]
        intro other hmem
        rw [List.map_append, List.nodup_append] at hnodup
        have hne := hnodup.2.2 other.1 (List.mem_map_of_mem hmem) entry.1 (by simp)
        simpa using hne.symm
      have happend : root ++ entry :: t = (root ++ [entry]) ++ t := by simp
      rw [happend] at hnodup ⊢
      rw [List.map_cons, extend?, within?, insert?, hnew]
      exact ih hnodup

/-- A text has no more entries than characters. -/
theorem length_le_entryLines {texts : List String} (htexts : List.Forall₂ IsEntryLine t texts) :
    t.length ≤ (texts.flatMap String.toList).length := by
  induction htexts with
  | nil => exact Nat.zero_le _
  | @cons entry text t texts htext _ ih =>
      obtain ⟨line, rfl, -⟩ := htext
      rw [List.flatMap_cons, toList_entryLine, List.length_append]
      simp only [List.length_cons, List.length_append]
      omega

theorem skipByteOrderMark_entryLines {texts : List String}
    (hnames : ∀ entry ∈ t, IsPlainName entry.1) (htexts : List.Forall₂ IsEntryLine t texts) :
    skipByteOrderMark (texts.flatMap String.toList) = texts.flatMap String.toList := by
  cases htexts with
  | nil => rfl
  | @cons entry text t texts htext _ =>
      obtain ⟨line, rfl, -⟩ := htext
      obtain ⟨c, tail, heq, -, hne⟩ := (hnames entry List.mem_cons_self).starts
      have hmark : c ≠ '\ufeff' := hne '\ufeff' (by decide)
      rw [List.flatMap_cons, toList_entryLine, heq, List.cons_append, skipByteOrderMark]
      intro rest h
      exact hmark (List.cons.inj h).1

/-- A table is read as it was written. -/
theorem parse?_tableText? {text : String} (ht : IsPlainTable t) (h : tableText? t = some text) :
    parse? text = some t := by
  obtain ⟨texts, hlines, rfl⟩ := Option.map_eq_some_iff.mp h
  have htexts : List.Forall₂ IsEntryLine t texts := by
    refine ((List.forall₂_and_left _ _).mpr ⟨ht.values, option_mapM_eq_some_iff.mp hlines⟩).imp ?_
    rintro ⟨name, value⟩ text ⟨hplain, hline⟩
    obtain ⟨line, hvalue, rfl⟩ := Option.map_eq_some_iff.mp hline
    exact ⟨line, rfl, reads_valueText hplain hvalue⟩
  have hchars : (String.join texts).toList = texts.flatMap String.toList := String.toList_join
  have hlength := length_le_entryLines htexts
  rw [parse?, hchars, skipByteOrderMark_entryLines ht.names htexts]
  -- The fuel is the number of characters, and each entry takes one unit of it.
  simp only [Option.bind_eq_bind, document?,
    statements?_entryLines ht.names htexts (Nat.lt_succ_of_le hlength), Option.bind_some]
  show extend? [] [] _ = some ([] ++ t)
  exact extend?_entries ht.nodup

end VoltageStats.Toml
