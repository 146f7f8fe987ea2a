import VoltageStats.Decimal.Style
import VoltageStats.Toml.Document

/-!
# Writing TOML

Entries are written one to a line. A text with a backslash is written verbatim in single quotes,
if no character of it needs an escape sequence; all other texts stand in double quotes. Texts of
several lines have three quotes.
-/

namespace VoltageStats.Toml

/-- Four hexadecimal digits in upper case. -/
def hexWord (n : Nat) : List Char :=
  [n / 4096, n / 256, n / 16, n].map fun digit => (Nat.digitChar (digit % 16)).toUpper

/-- The characters that stand for a character in double quotes. Ends of lines stand for themselves
in a text of several lines. -/
def escaped (isLong : Bool) (c : Char) : List Char :=
  if c = '\x08' then ['\\', 'b']
  else if c = '\t' then ['\\', 't']
  else if c = '\n' then (if isLong then ['\n'] else ['\\', 'n'])
  else if c = '\x0c' then ['\\', 'f']
  else if c = '\r' then ['\\', 'r']
  else if c = '"' then ['\\', '"']
  else if c = '\\' then ['\\', '\\']
  else if c.toNat < 0x20 || c.toNat = 0x7f then '\\' :: 'u' :: hexWord c.toNat
  else [c]

/-- Whether three single quotes stand side by side. -/
def hasThreeQuotes : List Char → Bool
  | '\'' :: '\'' :: '\'' :: _ => true
  | _ :: rest => hasThreeQuotes rest
  | [] => false

/-- Whether a character cannot stand in single quotes. -/
def needsEscape (c : Char) : Bool :=
  (c.toNat < 0x20 && c ≠ '\t' && c ≠ '\n') || c.toNat = 0x7f

/-- Whether a text is written verbatim. -/
def isVerbatim (chars : List Char) : Bool :=
  chars.contains '\\' && !chars.any needsEscape && !hasThreeQuotes chars &&
    chars.getLast? ≠ some '\''

/-- The text of a text. -/
def quoted (text : String) : String :=
  let chars := text.toList
  let isLong := chars.contains '\n'
  if isVerbatim chars then
    if isLong then "'''\n" ++ text ++ "'''"
    else if chars.contains '\'' then "'''" ++ text ++ "'''"
    else "'" ++ text ++ "'"
  else
    let inner := String.ofList (chars.flatMap (escaped isLong))
    if isLong then "\"\"\"\n" ++ inner ++ "\"\"\"" else "\"" ++ inner ++ "\""

/-- The text of a value that has no parts. Only integers of 64 bits have one. -/
def scalarText? : Toml → Option String
  | text value => some (quoted value)
  | integer value => if -(2 ^ 63) ≤ value && value < 2 ^ 63 then some (toString value) else none
  | real value => some (NumberStyle.toml.write64 value)
  | boolean value => some (if value then "true" else "false")
  | moment words => some words
  | _ => none

/-- The text of a value that has no parts, or of an array of such values. -/
def valueText? : Toml → Option String
  | array items => (items.mapM scalarText?).map fun texts => "[" ++ ", ".intercalate texts ++ "]"
  | value => scalarText? value

/-- The text of a table with plain names, none of whose values is or holds a table. -/
def tableText? (t : Table) : Option String :=
  (t.mapM fun (name, value) => (valueText? value).map fun line =>
    name ++ " = " ++ line ++ "\n").map String.join

end VoltageStats.Toml
