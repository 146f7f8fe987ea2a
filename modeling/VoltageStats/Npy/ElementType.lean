import VoltageStats.Npy.Literal

/-!
# Element types of array files

The element type of an array file is a scalar, written as a byte order, a letter, a size in bytes
and for times a unit, such as `<f4`; or a record, a list of named fields of any element type.
`ElementType.ofLiteral?` reads a type as the header of a file gives it and `ElementType.text` is
the text that a type is shown as.
-/

namespace VoltageStats.Npy

/-- The order of the bytes of a scalar. -/
inductive ByteOrder where
  | little
  | big
  /-- For scalars whose bytes have no order. -/
  | irrelevant
  deriving DecidableEq, Repr

namespace ByteOrder

/-- The mark of a byte order. -/
def mark : ByteOrder → Char
  | little => '<'
  | big => '>'
  | irrelevant => '|'

/-- The byte order with a mark. -/
def ofMark? (c : Char) : Option ByteOrder := [little, big, irrelevant].find? (·.mark = c)

end ByteOrder

/-- What a scalar stands for. -/
inductive ScalarKind where
  | boolean
  | signed
  | unsigned
  | float
  | complex
  | timeSpan
  | dateTime
  | bytes
  | text
  | raw
  deriving DecidableEq, Repr

namespace ScalarKind

/-- The letter of a kind of scalars. -/
def letter : ScalarKind → Char
  | boolean => 'b'
  | signed => 'i'
  | unsigned => 'u'
  | float => 'f'
  | complex => 'c'
  | timeSpan => 'm'
  | dateTime => 'M'
  | bytes => 'S'
  | text => 'U'
  | raw => 'V'

/-- The kind of scalars with a letter. Byte strings have a second letter. -/
def ofLetter? (c : Char) : Option ScalarKind :=
  if c = 'a' then some bytes
  else [boolean, signed, unsigned, float, complex, timeSpan, dateTime, bytes, text, raw].find?
    (·.letter = c)

/-- Whether scalars of a kind can have a size. -/
def admitsSize : ScalarKind → Nat → Bool
  | boolean, size => size = 1
  | signed, size | unsigned, size => [1, 2, 4, 8].contains size
  | float, size => [2, 4, 8, 16].contains size
  | complex, size => [8, 16, 32].contains size
  | timeSpan, size | dateTime, size => size = 8
  | bytes, _ | text, _ | raw, _ => true

/-- Whether a kind of scalars has a unit of time. -/
def hasUnit : ScalarKind → Bool
  | timeSpan | dateTime => true
  | _ => false

/-- Whether the bytes of a scalar are in an order. -/
def isOrdered : ScalarKind → Nat → Bool
  | bytes, _ | raw, _ => false
  | _, size => size ≠ 1

end ScalarKind

/-- The units of time, from years to attoseconds. -/
def timeUnits : List String :=
  ["Y", "M", "W", "D", "h", "m", "s", "ms", "us", "ns", "ps", "fs", "as"]

/-- The type of a scalar. -/
structure ScalarType where
  order : ByteOrder
  kind : ScalarKind
  /-- The size in bytes, for texts in characters. -/
  size : Nat
  unit : Option String
  deriving DecidableEq, Repr

namespace ScalarType

/-- Bytes. -/
def byte : ScalarType := ⟨.irrelevant, .unsigned, 1, none⟩

/-- Unsigned integers of four bytes. -/
def count32 : ScalarType := ⟨.little, .unsigned, 4, none⟩

/-- Single-precision numbers. -/
def float32 : ScalarType := ⟨.little, .float, 4, none⟩

/-- The text of a scalar type. -/
def text (t : ScalarType) : String :=
  let unit := match t.unit with
    | some unit => "[" ++ unit ++ "]"
    | none => ""
  String.ofList [t.order.mark, t.kind.letter] ++ toString t.size ++ unit

/-- The unit in square brackets that makes up all of some characters. -/
def unit? : List Char → Option String
  | '[' :: rest =>
    if rest.getLast? = some ']' then timeUnits.find? (·.toList = rest.dropLast) else none
  | _ => none

/-- The scalar type with a text. -/
def ofText? (text : String) : Option ScalarType := do
  match text.toList with
  | mark :: letter :: rest =>
    let order ← ByteOrder.ofMark? mark
    let kind ← ScalarKind.ofLetter? letter
    let size ← VoltageStats.Literal.natural? (rest.takeWhile Char.isDigit)
    guard (size < 2 ^ 64 && kind.admitsSize size)
    guard (order ≠ .irrelevant || !kind.isOrdered size)
    match kind.hasUnit, rest.dropWhile Char.isDigit with
    | false, [] => return ⟨order, kind, size, none⟩
    | true, rest => return ⟨order, kind, size, some (← unit? rest)⟩
    | _, _ => none
  | _ => none

end ScalarType

mutual

/-- The type of the elements of an array. -/
inductive ElementType where
  | scalar (type : ScalarType)
  | record (fields : RecordFields)

/-- The fields of a record, each an element or an array of elements. -/
inductive RecordFields where
  | nil
  | cons (name : String) (type : ElementType) (shape : List Nat) (rest : RecordFields)

end

/-- The lengths of axes that a literal lists. Each is below `2 ^ 64`. -/
def shapeOf? : Literal → Option (List Nat)
  | .tuple items | .list items => items.mapM fun
    | .integer value => if 0 ≤ value && value < 2 ^ 64 then some value.toNat else none
    | _ => none
  | _ => none

mutual

/-- The element type that a literal describes. -/
def ElementType.ofLiteral? : Literal → Option ElementType
  | .text text => (ScalarType.ofText? text).map .scalar
  | .list items => (RecordFields.ofLiterals? items).map .record
  | _ => none

/-- The fields that literals describe: a name, a type and possibly a shape. -/
def RecordFields.ofLiterals? : List Literal → Option RecordFields
  | [] => some .nil
  | .tuple [.text name, type] :: rest => do
    return .cons name (← ElementType.ofLiteral? type) [] (← RecordFields.ofLiterals? rest)
  | .tuple [.text name, type, shape] :: rest => do
    let type ← ElementType.ofLiteral? type
    return .cons name type (← shapeOf? shape) (← RecordFields.ofLiterals? rest)
  | _ :: _ => none

end

/-- A name in single quotes. -/
def quotedName (name : String) : String :=
  let chars := name.toList.flatMap fun c => if c = '\\' || c = '\'' then ['\\', c] else [c]
  "'" ++ String.ofList chars ++ "'"

mutual

/-- The text of an element type. -/
def ElementType.text : ElementType → String
  | .scalar type => "'" ++ type.text ++ "'"
  | .record fields => "[" ++ RecordFields.text fields ++ "]"

/-- The text of the fields of a record. -/
def RecordFields.text : RecordFields → String
  | .nil => ""
  | .cons name type shape rest =>
    let lengths := if shape = [] then ""
      else ", (" ++ String.join (shape.map fun n => toString n ++ ",") ++ ")"
    "(" ++ quotedName name ++ ", " ++ ElementType.text type ++ lengths ++ "), " ++
      RecordFields.text rest

end

end VoltageStats.Npy
