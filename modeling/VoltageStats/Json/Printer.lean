import VoltageStats.Binary.Format
import VoltageStats.Decimal.Style

/-!
# Writing JSON

JSON texts are put together from the texts of their parts, without blanks.
-/

namespace VoltageStats.JsonText

/-- The characters that stand for a character in a text. -/
def escaped (c : Char) : List Char :=
  if c = '"' then ['\\', '"']
  else if c = '\\' then ['\\', '\\']
  else if c = '\x08' then ['\\', 'b']
  else if c = '\x0c' then ['\\', 'f']
  else if c = '\n' then ['\\', 'n']
  else if c = '\r' then ['\\', 'r']
  else if c = '\t' then ['\\', 't']
  else if c.toNat < 0x20 then
    ['\\', 'u', '0', '0', Nat.digitChar (c.toNat / 16), Nat.digitChar (c.toNat % 16)]
  else [c]

/-- A text in quotes. -/
def quoted (text : String) : String :=
  String.ofList ('"' :: text.toList.flatMap escaped ++ ['"'])

/-- An array of values. -/
def array (items : List String) : String := "[" ++ ",".intercalate items ++ "]"

/-- An object with named values. -/
def object (members : List (String × String)) : String :=
  "\x7b" ++ ",".intercalate (members.map fun (name, value) => quoted name ++ ":" ++ value) ++ "\x7d"

/-- A truth value. -/
def boolean (value : Bool) : String := if value then "true" else "false"

/-- A double. -/
def double (x : Binary64) : String := NumberStyle.json.write64 x

/-- A single-precision number. -/
def single (x : Binary32) : String := NumberStyle.json.write32 x

end VoltageStats.JsonText
