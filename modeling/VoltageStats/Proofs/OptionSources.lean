import VoltageStats.CommandLine.Invocation
import VoltageStats.Proofs.Json.Canonical
import VoltageStats.Proofs.Options
import VoltageStats.Proofs.Toml.Canonical

/-!
# Where options come from

Argument files and command lines give no other options than canonical ones
(`GivenOptions.isCanonical_of_options?`, `CommandLine.isCanonical_of_ofArguments`).
-/

namespace VoltageStats

/-! ## Values -/

namespace Literal

theorem isCanonical_of_double? {text : List Char} {x : Binary64} (h : double? text = some x) :
    x.IsCanonical := by
  unfold double? at h
  dsimp only at h
  split at h
  next =>
    obtain rfl := Option.some.inj h
    exact Binary64.isCanonical_infinity _
  next =>
    split at h
    next =>
      obtain rfl := Option.some.inj h
      exact Binary64.isCanonical_nan _
    next =>
      obtain ⟨-, h⟩ := Option.ite_none_left_eq_some.mp h
      obtain ⟨e, -, rfl⟩ := Option.map_eq_some_iff.mp h
      exact Binary64.isCanonical_ofDecimal _ _ _

end Literal

/-- No option is a list of doubles. -/
theorem GeneratorOption.kind_ne_doubles (o : GeneratorOption) : o.kind ≠ .doubles := by
  cases o <;> decide

namespace FieldKind

variable {kind : FieldKind} {value : kind.Value}

theorem isCanonical_of_ofToml? {toml : Toml} (htoml : toml.IsCanonical) (hkind : kind ≠ .doubles)
    (h : kind.ofToml? toml = some value) : kind.IsCanonical value := by
  cases kind with
  | double =>
      cases toml with
      | integer n =>
          obtain rfl := Option.some.inj h
          exact Binary64.isCanonical_ofInt n
      | real x =>
          obtain rfl := Option.some.inj h
          exact htoml
      | _ => cases h
  | doubles => exact absurd rfl hkind
  | _ => trivial

theorem isCanonical_of_ofJson? {json : Json} (hjson : json.IsCanonical) (hkind : kind ≠ .doubles)
    (h : kind.ofJson? json = some value) : kind.IsCanonical value := by
  cases kind with
  | double =>
      cases json with
      | integer n =>
          obtain rfl := Option.some.inj h
          exact Binary64.isCanonical_ofInt n
      | real x =>
          obtain rfl := Option.some.inj h
          exact hjson
      | _ => cases h
  | doubles => exact absurd rfl hkind
  | _ => trivial

theorem isCanonical_of_ofArguments? {arguments : List String}
    (hkind : kind ≠ .doubles) (h : kind.ofArguments? arguments = some value) :
    kind.IsCanonical value := by
  cases kind with
  | double =>
      rcases arguments with _ | ⟨first, _ | ⟨second, arguments⟩⟩
      · cases h
      · exact Literal.isCanonical_of_double? h
      · cases h
  | doubles => exact absurd rfl hkind
  | _ => trivial

end FieldKind

/-! ## Argument files -/

namespace GivenOptions

open GeneratorOption (all)

variable {given : GivenOptions}

theorem isCanonical_of_ofToml? {t : Toml.Table} (ht : t.IsCanonical) (h : ofToml? t = some given) :
    given.IsCanonical := by
  intro o value hvalue
  have hread := collect?_eq_some_iff.mp h o
  split at hread
  next toml hlookup =>
    rw [hvalue] at hread
    obtain ⟨found, hfound, heq⟩ := Option.map_eq_some_iff.mp hread
    obtain rfl := Option.some.inj heq
    obtain ⟨before, after, rfl, -⟩ := List.lookup_eq_some_iff.mp hlookup
    have htoml : toml.IsCanonical := ht (o.name, toml) (by simp)
    exact FieldKind.isCanonical_of_ofToml? htoml o.kind_ne_doubles hfound
  next =>
    rw [hvalue] at hread
    cases Option.some.inj hread

theorem isCanonical_of_jsonValue? {o : GeneratorOption} {json : Json} {value : o.Value}
    (hjson : json.IsCanonical) (h : jsonValue? o json = some (some value)) :
    o.kind.IsCanonical value := by
  unfold jsonValue? at h
  split at h
  next => cases h
  next =>
    obtain ⟨found, hfound, heq⟩ := Option.map_eq_some_iff.mp h
    obtain rfl := Option.some.inj heq
    exact FieldKind.isCanonical_of_ofJson? hjson o.kind_ne_doubles hfound

theorem isCanonical_of_ofJson? {json : Json} (hjson : json.HasCanonicalParts)
    (h : ofJson? json = some given) : given.IsCanonical := by
  intro o value hvalue
  unfold ofJson? at h
  split at h
  next members =>
    obtain ⟨-, h⟩ := Option.ite_none_left_eq_some.mp h
    have hread := collect?_eq_some_iff.mp h o
    rw [hvalue] at hread
    split at hread
    next json hlookup =>
      obtain ⟨before, after, rfl, -⟩ := List.lookup_eq_some_iff.mp hlookup
      have hjson : json.IsCanonical := hjson (some o.name, json) (by simp)
      exact isCanonical_of_jsonValue? hjson hread
    next => cases hread
  next items =>
    obtain ⟨-, h⟩ := Option.ite_none_left_eq_some.mp h
    have hread := collect?_eq_some_iff.mp h o
    rw [hvalue] at hread
    obtain ⟨json, hlookup, hread⟩ := Option.bind_eq_some_iff.mp hread
    obtain ⟨before, after, heq, -⟩ := List.lookup_eq_some_iff.mp hlookup
    have hmem : (o, json) ∈ all.zip items := by simp [heq]
    exact isCanonical_of_jsonValue? (hjson json (List.of_mem_zip hmem).2) hread
  next => cases h

/-- Argument files give canonical options. -/
theorem isCanonical_of_options? {format : ArgumentFormat} {text : String}
    (h : format.options? text = some given) : given.IsCanonical := by
  cases format with
  | toml =>
      obtain ⟨t, ht, h⟩ := Option.bind_eq_some_iff.mp h
      exact isCanonical_of_ofToml? (Toml.isCanonical_of_parse? ht) h
  | json =>
      obtain ⟨json, hjson, h⟩ := Option.bind_eq_some_iff.mp h
      exact isCanonical_of_ofJson? (Json.hasCanonicalParts_of_parse? hjson) h

end GivenOptions

/-! ## Command lines -/

namespace CommandLine

/-- What is asked for is what follows the name of a command. -/
theorem exists_command {arguments : List String} {invocation : Invocation}
    (h : Invocation.ofArguments arguments = .ok invocation) :
    ∃ r, generateCommand r = .ok invocation.command ∨
      summaryCommand r = .ok invocation.command := by
  unfold Invocation.ofArguments at h
  obtain ⟨⟨before, found⟩, -, h⟩ := except_bind_eq_ok_iff.mp h
  dsimp only at h
  split at h
  next name arguments =>
    obtain ⟨⟨after, rest⟩, -, h⟩ := except_bind_eq_ok_iff.mp h
    dsimp only at h
    generalize (decide (name = "generate") || decide (name = "generate-stat")) = isGenerate at h
    cases isGenerate with
    | false =>
        rw [if_neg Bool.false_ne_true, if_neg Bool.false_ne_true] at h
        split at h
        next => cases h
        next =>
          obtain ⟨command, hcommand, h⟩ := except_bind_eq_ok_iff.mp h
          cases h
          exact ⟨after, .inr hcommand⟩
    | true =>
        rw [if_pos rfl, if_pos rfl] at h
        split at h
        next => cases h
        next =>
          obtain ⟨command, hcommand, h⟩ := except_bind_eq_ok_iff.mp h
          cases h
          exact ⟨after, .inl hcommand⟩
  next => cases h

/-- What follows the name of the command that generates an archive is read as options. -/
theorem ofArguments_eq_ok {arguments rest : List String} {before after : Reading}
    {found : Option (String × List String)} {given : GivenOptions}
    (hmain : mainGrammar.run .start arguments = .ok (before, some ("generate", rest)))
    (hafter : generateGrammar.run .start rest = .ok (after, found))
    (hbefore : mainGrammar.isComplete before) (hcomplete : generateGrammar.isComplete after)
    (hgiven : givenOptions after = .ok given) :
    Invocation.ofArguments arguments =
      .ok (invocation before after (.generate after.operands.head? given)) := by
  have hcommand : generateCommand after = .ok (.generate after.operands.head? given) := by
    rw [generateCommand, hgiven]
    rfl
  rw [Invocation.ofArguments, except_bind_eq_ok_iff]
  refine ⟨_, hmain, ?_⟩
  show (generateGrammar.run .start rest >>= _ : Except Refusal Invocation) = _
  rw [except_bind_eq_ok_iff]
  refine ⟨_, hafter, ?_⟩
  have hall : (!generateGrammar.isComplete after || !mainGrammar.isComplete before) = false := by
    rw [hcomplete, hbefore]
    rfl
  show (if (!generateGrammar.isComplete after || !mainGrammar.isComplete before) = true then _
    else (generateCommand after >>= _ : Except Refusal Invocation)) = _
  rw [hall, hcommand]
  rfl

theorem givenOptions_eq_ok_iff {r : Reading} {given : GivenOptions} :
    givenOptions r = .ok given ↔ ∀ o,
      (if r.has (optionName o) then (o.kind.ofArguments? (r.values (optionName o))).map some
        else some none) = some (given.value? o) := by
  rw [← GivenOptions.collect?_eq_some_iff]
  unfold givenOptions
  dsimp only
  split
  next found hfound => rw [hfound, Except.ok.injEq, Option.some.injEq]
  next hnone =>
    rw [hnone]
    exact ⟨fun h => (nomatch h), fun h => (nomatch h)⟩

theorem isCanonical_of_givenOptions {r : Reading} {given : GivenOptions}
    (h : givenOptions r = .ok given) : given.IsCanonical := by
  intro o value hvalue
  have hread := givenOptions_eq_ok_iff.mp h o
  rw [hvalue] at hread
  split at hread
  next =>
    obtain ⟨found, hfound, heq⟩ := Option.map_eq_some_iff.mp hread
    obtain rfl := Option.some.inj heq
    exact FieldKind.isCanonical_of_ofArguments? o.kind_ne_doubles hfound
  next => cases hread

theorem summaryCommand_ne_generate {r : Reading} {file : Option String} {given : GivenOptions} :
    summaryCommand r ≠ .ok (.generate file given) := by
  intro h
  unfold summaryCommand at h
  split at h
  next =>
    obtain ⟨pol, -, h⟩ := except_bind_eq_ok_iff.mp h
    obtain ⟨dim, -, h⟩ := except_bind_eq_ok_iff.mp h
    obtain ⟨excised, -, h⟩ := except_bind_eq_ok_iff.mp h
    cases h
  next => cases h

/-- Command lines give canonical options. -/
theorem isCanonical_of_ofArguments {arguments : List String} {invocation : Invocation}
    {file : Option String} {given : GivenOptions}
    (hline : Invocation.ofArguments arguments = .ok invocation)
    (hcommand : invocation.command = .generate file given) : given.IsCanonical := by
  obtain ⟨r, h | h⟩ := exists_command hline
  · rw [hcommand] at h
    obtain ⟨found, hfound, h⟩ := except_bind_eq_ok_iff.mp h
    cases h
    exact isCanonical_of_givenOptions hfound
  · rw [hcommand] at h
    exact absurd h summaryCommand_ne_generate

end CommandLine

end VoltageStats
