import VoltageStats.Json.Record
import VoltageStats.Options.Basic
import VoltageStats.Text.Lowercase
import VoltageStats.Toml.Printer
import VoltageStats.Toml.Reader

/-!
# Argument files

An argument file gives options by their names, as a TOML document or a JSON object. The extension
of the file says which. What has another name than an option is ignored. Given options are saved
as a TOML document; integers that do not fit into a signed word of 64 bits cannot be.
-/

namespace VoltageStats

namespace FieldKind

/-- A natural number below a bound. -/
def naturalOfToml? (bound : Nat) : Toml → Option Nat
  | .integer value => if 0 ≤ value && value < bound then some value.toNat else none
  | _ => none

/-- A double; an integer is rounded to the nearest one. -/
def doubleOfToml? : Toml → Option Binary64
  | .integer value => some (.ofInt value)
  | .real value => some value
  | _ => none

/-- The items of an array, each read in one way. -/
def itemsOfToml? {α : Type} (item? : Toml → Option α) : Toml → Option (List α)
  | .array items => items.mapM item?
  | _ => none

/-- The value of a field that a TOML value stands for. -/
def ofToml? : (kind : FieldKind) → Toml → Option kind.Value
  | text, toml => match toml with
    | .text value => some value
    | _ => none
  | word32, toml => (naturalOfToml? (2 ^ 32) toml).map UInt32.ofNat
  | word64, toml => (naturalOfToml? (2 ^ 64) toml).map UInt64.ofNat
  | double, toml => doubleOfToml? toml
  | doubles, toml => (itemsOfToml? doubleOfToml? toml).map List.toArray
  | words, toml => (itemsOfToml? (naturalOfToml? (2 ^ 32)) toml).map fun items =>
    (items.map UInt32.ofNat).toArray
  | channels, toml => itemsOfToml? (naturalOfToml? (2 ^ 64)) toml

/-- The TOML value for the value of a field. -/
def toToml : (kind : FieldKind) → kind.Value → Toml
  | text, value => .text value
  | word32, value => .integer value.toNat
  | word64, value => .integer value.toNat
  | double, value => .real value
  | doubles, values => .array (values.toList.map .real)
  | words, values => .array (values.toList.map fun n => .integer n.toNat)
  | channels, values => .array (values.map fun (n : Nat) => .integer n)

end FieldKind

namespace GivenOptions

/-- The options that a TOML document gives. -/
def ofToml? (t : Toml.Table) : Option GivenOptions :=
  collect? fun o =>
    match t.lookup o.name with
    | some value => (o.kind.ofToml? value).map some
    | .none => some .none

/-- The TOML document that gives some options. -/
def toToml (given : GivenOptions) : Toml.Table :=
  GeneratorOption.all.filterMap fun o =>
    (given.value? o).map fun value => (o.name, o.kind.toToml value)

/-- The value that JSON gives an option. A null gives none. -/
def jsonValue? (o : GeneratorOption) : Json → Option (Option o.Value)
  | .null => some .none
  | json => (o.kind.ofJson? json).map some

/-- The options that JSON gives: an object whose members have an option's name at most once each,
or an array with a value for every option. -/
def ofJson? : Json → Option GivenOptions
  | .object members =>
    let names := members.filterMap (·.1)
    let isTwice (o : GeneratorOption) : Bool := 1 < names.count o.name
    if names.length ≠ members.length || GeneratorOption.all.any isTwice then .none
    else collect? fun o =>
      match members.lookup (some o.name) with
      | some json => jsonValue? o json
      | .none => some .none
  | .array items =>
    if items.length ≠ GeneratorOption.all.length then .none
    else collect? fun o => (GeneratorOption.all.zip items).lookup o >>= jsonValue? o
  | _ => .none

end GivenOptions

/-- The formats of argument files. -/
inductive ArgumentFormat where
  | toml
  | json
  deriving DecidableEq, Repr

namespace ArgumentFormat

/-- All formats. -/
def all : List ArgumentFormat := [toml, json]

/-- The name of a format, which is also the extension of its files. -/
def name : ArgumentFormat → String
  | toml => "toml"
  | json => "json"

/-- The format of the file that a path leads to. -/
def ofPath? (path : String) : Option ArgumentFormat := do
  let extension := Text.lowercase (← Path.extension? path)
  all.find? fun format => format.name = extension

/-- The options that a text in a format gives. -/
def options? (format : ArgumentFormat) (text : String) : Option GivenOptions :=
  match format with
  | toml => Toml.parse? text >>= GivenOptions.ofToml?
  | json => Json.parse? text >>= GivenOptions.ofJson?

end ArgumentFormat

/-! ## Errors

Paths are shown in quotes, with control characters and quotes as escape sequences. -/

namespace Text

/-- The characters that show a character. -/
def shown (c : Char) : List Char :=
  if c = '\x00' then ['\\', '0']
  else if c = '\t' then ['\\', 't']
  else if c = '\n' then ['\\', 'n']
  else if c = '\r' then ['\\', 'r']
  else if c = '"' || c = '\'' || c = '\\' then ['\\', c]
  else if c.toNat < 0x20 || (0x7f ≤ c.toNat && c.toNat < 0xa0) then
    ['\\', 'u', '\x7b'] ++ Nat.toDigits 16 c.toNat ++ ['\x7d']
  else [c]

/-- A text in quotes. -/
def quoted (text : String) : String := String.ofList ('"' :: text.toList.flatMap shown ++ ['"'])

end Text

/-- Why an argument file cannot be used. -/
inductive ArgumentFileError where
  /-- The extension of a file is none of those of the formats. -/
  | unknownFormat (path : String)
  /-- The text of a file gives no options. -/
  | malformed (format : ArgumentFormat) (path : String)
  /-- The given options include an integer that has no text in the format of a saved file. -/
  | unsavable
  deriving DecidableEq, Repr

/-- The message for an argument file that cannot be used. What is wrong with a text is not told. -/
def ArgumentFileError.message : ArgumentFileError → String
  | unknownFormat path =>
    s!"Argument file '" ++ Text.quoted path ++ "' doesn't have a recognised file extension! " ++
      "Valid extensions are: " ++ ", ".intercalate (ArgumentFormat.all.map (·.name))
  | malformed format path =>
    s!"Couldn't decode {format.name} structure from " ++ Text.quoted path ++ ":"
  | unsavable => "An integer is too large for an argument file"

/-! ## Saved options -/

/-- The text of the file that saves given options. -/
def GivenOptions.savedText? (given : GivenOptions) : Option String := Toml.tableText? given.toToml

end VoltageStats
