import VoltageStats.Decimal.Literal

/-!
# Literals in the header of an array file

The header of an array file is one literal: a dictionary whose keys are texts. Values are texts,
byte strings, numbers, tuples, lists, sets, dictionaries, truth values and `None`. Blanks,
tabs and form feeds may stand between the parts. A number may be a sum of signed numbers; only the
value of a sum of integers is kept.
-/

namespace VoltageStats.Npy

/-- A literal. -/
inductive Literal where
  | text (value : String)
  | integer (value : Int)
  | inexact
  | bytes
  | tuple (items : List Literal)
  | list (items : List Literal)
  | set (items : List Literal)
  | dictionary (entries : List (Literal × Literal))
  | boolean (value : Bool)
  | none

namespace Literal

open VoltageStats.Literal (charOf? digit? digitRun digitsIn? hexChar? splitSign)

/-- Blanks, tabs and form feeds. -/
def isBlank (c : Char) : Bool := c = ' ' || c = '\t' || c = '\x0c'

/-- The characters after any blanks. -/
def skipBlanks (input : List Char) : List Char := input.dropWhile isBlank

/-- The characters that an escape sequence stands for. The backslash has been read; a sequence
without a meaning stands for itself. -/
def escape : List Char → Option (List Char × List Char)
  | [] => Option.none
  | c :: rest =>
    match c with
    | '\n' => some ([], rest)
    | '\\' | '\'' | '"' => some ([c], rest)
    | 'a' => some (['\x07'], rest)
    | 'b' => some (['\x08'], rest)
    | 'f' => some (['\x0c'], rest)
    | 'n' => some (['\n'], rest)
    | 'r' => some (['\r'], rest)
    | 't' => some (['\t'], rest)
    | 'v' => some (['\x0b'], rest)
    | 'x' => (hexChar? 2 rest).map fun (c, rest) => ([c], rest)
    | 'u' => (hexChar? 4 rest).map fun (c, rest) => ([c], rest)
    | 'U' => (hexChar? 8 rest).map fun (c, rest) => ([c], rest)
    | _ =>
      let isOctal (c : Char) : Bool := '0' ≤ c && c ≤ '7'
      if isOctal c then
        let digits := (c :: rest).take 3 |>.takeWhile isOctal
        (digitsIn? 8 digits >>= charOf?).map fun value =>
          ([value], (c :: rest).drop digits.length)
      else some (['\\', c], rest)

/-- The rest of a text after its opening quote. A quote that is written three times closes where
it stands three times, and the text may then run over several lines. -/
def quoted (quote : Char) (triple : Bool) :
    (fuel : Nat) → List Char → Option (List Char × List Char)
  | 0, _ => Option.none
  | _, [] => Option.none
  | fuel + 1, c :: rest =>
    if c = '\\' then do
      let (chars, rest) ← escape rest
      let (more, rest) ← quoted quote triple fuel rest
      return (chars ++ more, rest)
    else if c = quote && !triple then some ([], rest)
    else if c = quote && rest.take 2 = [quote, quote] then some ([], rest.drop 2)
    else if !triple && (c = '\n' || c = '\r') then Option.none
    else (quoted quote triple fuel rest).map fun (more, rest) => (c :: more, rest)

/-- A text, from its opening quote. -/
def textFrom? : List Char → Option (String × List Char)
  | '\'' :: '\'' :: '\'' :: rest =>
    (quoted '\'' true rest.length rest).map fun (s, rest) => (String.ofList s, rest)
  | '"' :: '"' :: '"' :: rest =>
    (quoted '"' true rest.length rest).map fun (s, rest) => (String.ofList s, rest)
  | '\'' :: rest =>
    (quoted '\'' false rest.length rest).map fun (s, rest) => (String.ofList s, rest)
  | '"' :: rest =>
    (quoted '"' false rest.length rest).map fun (s, rest) => (String.ofList s, rest)
  | _ => Option.none

/-- An exponent, if there is one. -/
def exponentFrom (input : List Char) : Option (List Char) :=
  match input with
  | c :: rest =>
    if c = 'e' || c = 'E' then
      let (_, rest) := splitSign rest
      let (digits, rest) := digitRun Char.isDigit rest
      if digits = [] then Option.none else some rest
    else Option.none
  | [] => Option.none

/-- The digits of an integer with a prefix that names its base. -/
def basedInteger (base : Nat) (rest : List Char) : Option (Literal × List Char) := do
  let (digits, rest) := digitRun (fun c => (digit? c).any (· < base)) rest
  return (.integer (← digitsIn? base digits), rest)

/-- A number without a sign. An integer is kept, any other number is only recognised. -/
def unsignedNumber (input : List Char) : Option (Literal × List Char) :=
  match input with
  | '0' :: c :: rest =>
    if c = 'x' || c = 'X' then basedInteger 16 rest
    else if c = 'b' || c = 'B' then basedInteger 2 rest
    else if c = 'o' || c = 'O' then basedInteger 8 rest
    else decimal input
  | _ => decimal input
where
  decimal (input : List Char) : Option (Literal × List Char) :=
    let (whole, rest) := digitRun Char.isDigit input
    let (point, fraction, rest) := match rest with
      | '.' :: rest =>
        let (fraction, rest) := digitRun Char.isDigit rest
        (true, fraction, rest)
      | _ => (false, [], rest)
    if whole = [] && fraction = [] then Option.none
    else
      let (isReal, rest) := match exponentFrom rest with
        | some rest => (true, rest)
        | Option.none => (point, rest)
      match rest with
      | 'j' :: rest | 'J' :: rest => some (.inexact, rest)
      | _ =>
        if isReal then some (.inexact, rest)
        else (digitsIn? 10 whole).map fun value => (.integer value, rest)

/-- Signs with blanks between them: whether they are negative together, how many there are, and
what follows. -/
def signs : (fuel : Nat) → List Char → Bool × Nat × List Char
  | 0, input => (false, 0, input)
  | fuel + 1, input =>
    match skipBlanks input with
    | '-' :: rest =>
      let (negative, count, rest) := signs fuel rest
      (!negative, count + 1, rest)
    | '+' :: rest =>
      let (negative, count, rest) := signs fuel rest
      (negative, count + 1, rest)
    | _ => (false, 0, input)

/-- The sum of two numbers. -/
def plus (negative : Bool) : Literal → Literal → Literal
  | .integer a, .integer b => .integer (if negative then a - b else a + b)
  | _, _ => .inexact

/-- The rest of a sum of signed numbers, after its first terms. -/
def moreTerms (sum : Literal) : (fuel : Nat) → List Char → Option (Literal × List Char)
  | 0, input => some (sum, input)
  | fuel + 1, input =>
    match signs input.length input with
    | (_, 0, _) => some (sum, input)
    | (negative, _ + 1, rest) =>
      match unsignedNumber (skipBlanks rest) with
      | some (term, rest) => moreTerms (plus negative sum term) fuel rest
      | Option.none => some (sum, input)

/-- A sum of signed numbers. -/
def number (input : List Char) : Option (Literal × List Char) := do
  let (negative, _, rest) := signs input.length input
  let (term, rest) ← unsignedNumber (skipBlanks rest)
  moreTerms (plus negative (.integer 0) term) input.length rest

/-- What follows a word at the front of some characters. -/
def afterWord? (word : String) (input : List Char) : Option (List Char) :=
  let chars := word.toList
  if input.take chars.length = chars then some (input.drop chars.length) else Option.none

/-- A dictionary or a set from its entries; they must all be of one sort. -/
def braced (entries : List (Literal × Option Literal)) : Option Literal :=
  if entries.all (·.2.isSome) then
    some (.dictionary (entries.filterMap fun (key, value) => value.map (key, ·)))
  else if entries.all (·.2.isNone) then some (.set (entries.map (·.1)))
  else Option.none

mutual

/-- A literal at the front of some characters. -/
def value : (fuel : Nat) → List Char → Option (Literal × List Char)
  | 0, _ => Option.none
  | fuel + 1, input =>
    match input with
    | '(' :: rest => do
      let (items, comma, rest) ← items fuel ')' (skipBlanks rest)
      match items with
      | [_] => if comma then some (.tuple items, rest) else Option.none
      | _ => some (.tuple items, rest)
    | '[' :: rest => do
      let (items, _, rest) ← items fuel ']' (skipBlanks rest)
      return (.list items, rest)
    | '\x7b' :: rest => do
      let (entries, rest) ← entries fuel (skipBlanks rest)
      return (← braced entries, rest)
    | 'b' :: rest | 'B' :: rest => do
      let (_, rest) ← textFrom? rest
      return (.bytes, rest)
    | '\'' :: _ | '"' :: _ => (textFrom? input).map fun (s, rest) => (.text s, rest)
    | _ =>
      match afterWord? "True" input, afterWord? "False" input, afterWord? "None" input with
      | some rest, _, _ => some (.boolean true, rest)
      | _, some rest, _ => some (.boolean false, rest)
      | _, _, some rest => some (.none, rest)
      | _, _, _ => number input

/-- Items with commas between them up to a closing bracket, whether a comma follows the last, and
what follows the bracket. -/
def items : (fuel : Nat) → (close : Char) → List Char → Option (List Literal × Bool × List Char)
  | 0, _, _ => Option.none
  | fuel + 1, close, input =>
    match input with
    | [] => Option.none
    | c :: rest =>
      if c = close then some ([], false, rest)
      else do
        let (item, rest) ← value fuel input
        match skipBlanks rest with
        | ',' :: rest =>
          let (more, comma, rest) ← items fuel close (skipBlanks rest)
          return (item :: more, comma || more.isEmpty, rest)
        | c :: rest => if c = close then some ([item], false, rest) else Option.none
        | [] => Option.none

/-- The entries of a dictionary or a set up to its closing brace. -/
def entries : (fuel : Nat) → List Char → Option (List (Literal × Option Literal) × List Char)
  | 0, _ => Option.none
  | fuel + 1, input =>
    match input with
    | '\x7d' :: rest => some ([], rest)
    | _ => do
      let (key, rest) ← value fuel input
      let (entry, rest) ← match skipBlanks rest with
        | ':' :: rest => do
          let (item, rest) ← value fuel (skipBlanks rest)
          pure ((key, some item), rest)
        | rest => pure ((key, Option.none), rest)
      match skipBlanks rest with
      | ',' :: rest =>
        let (more, rest) ← entries fuel (skipBlanks rest)
        return (entry :: more, rest)
      | '\x7d' :: rest => return ([entry], rest)
      | _ => Option.none

end

/-- The literal that a text holds, with nothing but blanks around it. -/
def parse? (text : List Char) : Option Literal := do
  let (literal, rest) ← value (2 * text.length + 2) (skipBlanks text)
  if skipBlanks rest = [] then some literal else Option.none

end Literal

end VoltageStats.Npy
