import VoltageStats.Field
import VoltageStats.Json.Printer
import VoltageStats.Json.Reader

/-!
# Records in JSON

A record is written as an object with its fields in order. It is read from an object whose members
may come in any order, or from an array of values in the order of the fields. A member with an
unknown name is ignored, a name that comes twice is an error.
-/

namespace VoltageStats

namespace FieldKind

/-- A natural number below a bound. -/
def naturalBelow? (bound : Nat) : Json → Option Nat
  | .integer value => if 0 ≤ value && value < bound then some value.toNat else none
  | _ => none

/-- A double; an integer is rounded to the nearest one. -/
def double? : Json → Option Binary64
  | .integer value => some (.ofInt value)
  | .real value => some value
  | _ => none

/-- The items of an array, each read in one way. -/
def items? {α : Type} (item? : Json → Option α) : Json → Option (List α)
  | .array items => items.mapM item?
  | _ => none

/-- The value of a field that a JSON value stands for. -/
def ofJson? : (kind : FieldKind) → Json → Option kind.Value
  | text, json => match json with
    | .text value => some value
    | _ => none
  | word32, json => (naturalBelow? (2 ^ 32) json).map UInt32.ofNat
  | word64, json => (naturalBelow? (2 ^ 64) json).map UInt64.ofNat
  | double, json => double? json
  | doubles, json => (items? double? json).map List.toArray
  | words, json =>
    (items? (naturalBelow? (2 ^ 32)) json).map fun items => (items.map UInt32.ofNat).toArray
  | channels, json => items? (naturalBelow? (2 ^ 64)) json

/-- The JSON text of the value of a field. -/
def toJson : (kind : FieldKind) → kind.Value → String
  | text, value => JsonText.quoted value
  | word32, value => toString value
  | word64, value => toString value
  | double, value => JsonText.double value
  | doubles, values => JsonText.array (values.toList.map JsonText.double)
  | words, values => JsonText.array (values.toList.map fun n => toString n)
  | channels, values => JsonText.array (values.map fun n => toString n)

end FieldKind

/-- How a named part of a record is put into it from a JSON value. -/
abbrev JsonSetter (α : Type) : Type := String × (Json → α → Option α)

namespace JsonSetter

variable {α : Type}

/-- Puts members into a record, each known name once. Yields the names that were put. -/
def putMembers (setters : List (JsonSetter α)) (seen : List String) (record : α) :
    List (Option String × Json) → Option (α × List String)
  | [] => some (record, seen)
  | (none, _) :: _ => none
  | (some name, value) :: members =>
    match setters.lookup name with
    | none => putMembers setters seen record members
    | some set =>
      if seen.contains name then none
      else do putMembers setters (name :: seen) (← set value record) members

/-- Puts values into a record in order. Yields the number of parts that were put. -/
def putItems : (setters : List (JsonSetter α)) → α → List Json → Option (α × Nat)
  | _, record, [] => some (record, 0)
  | [], _, _ :: _ => none
  | (_, set) :: setters, record, value :: items => do
    let (record, count) ← putItems setters (← set value record) items
    return (record, count + 1)

end JsonSetter

/-- The field as a part of a record. -/
def Field.jsonSetter {α : Type} (field : Field α) : JsonSetter α :=
  (field.name, fun json record => (field.kind.ofJson? json).map (field.set record))

namespace Json

variable {α : Type}

/-- The record that a value holds. Parts that are left out keep what they are in `start`, if they
may be left out. -/
def record? (setters : List (JsonSetter α)) (start : α) (mayLeaveOut : Bool) : Json → Option α
  | object members => do
    let (record, seen) ← JsonSetter.putMembers setters [] start members
    if mayLeaveOut || seen.length = setters.length then some record else none
  | array items => do
    let (record, count) ← JsonSetter.putItems setters start items
    if mayLeaveOut || count = setters.length then some record else none
  | _ => none

end Json

/-- The text of a record. -/
def JsonText.ofRecord {α : Type} (fields : List (Field α)) (record : α) : String :=
  object (fields.map fun field => (field.name, field.kind.toJson (field.get record)))

/-- The settings that a JSON text holds. -/
def Settings.ofJson? (text : String) : Option Settings := do
  (← Json.parse? text).record? (Settings.fields.map Field.jsonSetter) Settings.default true

/-- The scan identifiers that a JSON text holds. -/
def ScanIdentifiers.ofJson? (text : String) : Option ScanIdentifiers := do
  (← Json.parse? text).record? (ScanIdentifiers.fields.map Field.jsonSetter)
    ScanIdentifiers.default true

/-- The header that a JSON text holds. -/
def Metadata.ofJson? (text : String) : Option Metadata := do
  (← Json.parse? text).record? (Metadata.fields.map Field.jsonSetter) default false

/-- The JSON text of settings. -/
def Settings.toJson (s : Settings) : String := JsonText.ofRecord Settings.fields s

/-- The JSON text of scan identifiers. -/
def ScanIdentifiers.toJson (ids : ScanIdentifiers) : String :=
  JsonText.ofRecord ScanIdentifiers.fields ids

/-- The JSON text of a header. -/
def Metadata.toJson (m : Metadata) : String := JsonText.ofRecord Metadata.fields m

end VoltageStats
