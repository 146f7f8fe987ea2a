import VoltageStats.Decimal.Literal
import VoltageStats.Toml.Document
import VoltageStats.Toml.Moment

/-!
# Reading TOML

A text is read to the statements of a document. Texts stand in double quotes, where a backslash
starts an escape sequence, or in single quotes, where it does not; three quotes open a text of
several lines. Values may be nested, and keys may have parts, up to a limit.
-/

namespace VoltageStats.Toml

open Literal (digitRun digitsIn? digitsValue hexChar? splitSign)

/-- The number of values inside each other, and of parts of a key, that is no longer read. -/
def nestingLimit : Nat := 80

/-- Blanks within a line. -/
def isBlank (c : Char) : Bool := c = ' ' || c = '\t'

/-- Whether a character may stand for itself: a tab, or one that is no control character. -/
def isPlain (c : Char) : Bool := c = '\t' || (0x20 ≤ c.toNat && c.toNat ≠ 0x7f)

/-- The characters after any blanks. -/
def skipBlanks (input : List Char) : List Char := input.dropWhile isBlank

/-- What follows the end of a line. -/
def newline? : List Char → Option (List Char)
  | '\n' :: rest => some rest
  | '\r' :: '\n' :: rest => some rest
  | _ => none

/-- What follows the rest of a line that holds no more than blanks and a comment. The last line
need not end. -/
def lineEnd? (input : List Char) : Option (List Char) :=
  let rest := match skipBlanks input with
    | '#' :: rest => rest.dropWhile isPlain
    | rest => rest
  if rest = [] then some [] else newline? rest

/-- The characters after blanks, ends of lines, and comments. -/
def skipLines (isComment : Bool) : List Char → List Char
  | [] => []
  | '\n' :: rest => skipLines false rest
  | '\r' :: '\n' :: rest => skipLines false rest
  | c :: rest =>
    if isComment then (if isPlain c then skipLines true rest else c :: rest)
    else if isBlank c then skipLines false rest
    else if c = '#' then skipLines true rest
    else c :: rest

/-- The characters after blanks and ends of lines. -/
def skipBlankLines : List Char → List Char
  | [] => []
  | '\n' :: rest => skipBlankLines rest
  | '\r' :: '\n' :: rest => skipBlankLines rest
  | c :: rest => if isBlank c then skipBlankLines rest else c :: rest

/-! ## Texts -/

/-- The character that an escape sequence stands for. The backslash has been read. -/
def escaped? : List Char → Option (Char × List Char)
  | 'u' :: rest => hexChar? 4 rest
  | 'U' :: rest => hexChar? 8 rest
  | c :: rest =>
    let plain := [('b', '\x08'), ('t', '\t'), ('n', '\n'), ('f', '\x0c'), ('r', '\r'), ('"', '"'),
      ('\\', '\\')]
    (plain.lookup c).map fun c => (c, rest)
  | [] => none

/-- The rest of a text in double quotes. -/
def quotedText? : (fuel : Nat) → List Char → Option (List Char × List Char)
  | 0, _ => none
  | _, [] => none
  | fuel + 1, c :: rest =>
    if c = '"' then some ([], rest)
    else if c = '\\' then do
      let (c, rest) ← escaped? rest
      let (chars, rest) ← quotedText? fuel rest
      return (c :: chars, rest)
    else if isPlain c then (quotedText? fuel rest).map fun (chars, rest) => (c :: chars, rest)
    else none

/-- The rest of a text in single quotes. -/
def verbatimText? (input : List Char) : Option (List Char × List Char) :=
  let (chars, rest) := input.span fun c => isPlain c && c ≠ '\''
  match rest with
  | '\'' :: rest => some (chars, rest)
  | _ => none

/-- The quotes before the three that close a text, and what follows those. More than two quotes
cannot stand before them. -/
def closing? (quotes rest : List Char) : Option (List Char × List Char) :=
  if quotes.length ≤ 5 then some (quotes.drop 3, rest) else none

/-- What follows a backslash at the end of a line, and the blank lines after it. -/
def continuation? (input : List Char) : Option (List Char) :=
  (newline? (skipBlanks input)).map skipBlankLines

/-- The rest of a text of several lines. The escape sequences of texts in double quotes only
count where `hasEscapes` is set. -/
def linesText? (quote : Char) (hasEscapes : Bool) :
    (fuel : Nat) → List Char → Option (List Char × List Char)
  | 0, _ => none
  | _, [] => none
  | fuel + 1, c :: rest =>
    let quotes := (c :: rest).takeWhile (· = quote)
    if 3 ≤ quotes.length then closing? quotes ((c :: rest).drop quotes.length)
    else
      match newline? (c :: rest) with
      | some rest =>
        (linesText? quote hasEscapes fuel rest).map fun (chars, rest) => ('\n' :: chars, rest)
      | none =>
        if hasEscapes && c = '\\' then
          match continuation? rest with
          | some rest => linesText? quote hasEscapes fuel rest
          | none => do
            let (c, rest) ← escaped? rest
            let (chars, rest) ← linesText? quote hasEscapes fuel rest
            return (c :: chars, rest)
        else if isPlain c then
          (linesText? quote hasEscapes fuel rest).map fun (chars, rest) => (c :: chars, rest)
        else none

/-- A text of several lines after its opening quotes. The first line is left out if it is empty. -/
def longText? (quote : Char) (hasEscapes : Bool) (input : List Char) :
    Option (List Char × List Char) :=
  linesText? quote hasEscapes (input.length + 1) ((newline? input).getD input)

/-- A text on one line from its opening quote. -/
def lineText? : List Char → Option (List Char × List Char)
  | '"' :: rest => quotedText? (rest.length + 1) rest
  | '\'' :: rest => verbatimText? rest
  | _ => none

/-- A text from its opening quote. -/
def text? (input : List Char) : Option (List Char × List Char) :=
  match input with
  | '"' :: '"' :: '"' :: rest => longText? '"' true rest
  | '\'' :: '\'' :: '\'' :: rest => longText? '\'' false rest
  | _ => lineText? input

/-! ## Keys -/

/-- Whether a character may stand in a name without quotes. -/
def isNameChar (c : Char) : Bool := c.isAlphanum || c = '-' || c = '_'

/-- A name, and what follows it. -/
def name? (input : List Char) : Option (String × List Char) :=
  if input.head? = some '"' || input.head? = some '\'' then
    (lineText? input).map fun (chars, rest) => (String.ofList chars, rest)
  else
    let (chars, rest) := input.span isNameChar
    if chars = [] then none else some (String.ofList chars, rest)

/-- A key of at most a number of parts, with blanks around them, and what follows it. -/
def key? : (limit : Nat) → List Char → Option (List String × List Char)
  | 0, _ => none
  | limit + 1, input => do
    let (name, rest) ← name? (skipBlanks input)
    match skipBlanks rest with
    | '.' :: rest => (key? limit rest).map fun (names, rest) => (name :: names, rest)
    | rest => return ([name], rest)

/-! ## Words: numbers, moments and truth values -/

/-- Digits with underscores between them that make up a whole word. -/
def wholeDigits? (isDigit : Char → Bool) (word : List Char) : Option (List Char) :=
  match digitRun isDigit word with
  | (_ :: _, []) => some (digitRun isDigit word).1
  | _ => none

/-- The digits of a decimal integer without a sign, which has no zeros in front. -/
def wholePart? (word : List Char) : Option (List Char) := do
  let digits ← wholeDigits? Char.isDigit word
  if digits.head? = some '0' && 1 < digits.length then none else return digits

/-- An integer. -/
def integer? (word : List Char) : Option Int :=
  match word with
  | '0' :: 'x' :: digits => based 16 digits
  | '0' :: 'o' :: digits => based 8 digits
  | '0' :: 'b' :: digits => based 2 digits
  | _ =>
    let (negative, digits) := splitSign word
    (wholePart? digits).map fun digits =>
      if negative then -(digitsValue digits : Int) else digitsValue digits
where
  based (base : Nat) (digits : List Char) : Option Int := do
    let digits ← wholeDigits? (fun c => (Literal.digit? c).any (· < base)) digits
    return (← digitsIn? base digits : Nat)

/-- A number with a point, an exponent, or both. -/
def decimal? (negative : Bool) (word : List Char) : Option Binary64 := do
  let isExponentMark (c : Char) : Bool := c = 'e' || c = 'E'
  let (mantissa, power) := word.span fun c => !isExponentMark c
  let (whole, fraction) := mantissa.span (· ≠ '.')
  if power = [] && fraction = [] then none
  let whole ← wholePart? whole
  let fraction ← match fraction with
    | [] => some []
    | _ :: digits => wholeDigits? Char.isDigit digits
  let power ← match power with
    | [] => some 0
    | _ :: power =>
      let (isDown, digits) := splitSign power
      (wholeDigits? Char.isDigit digits).map fun digits =>
        if isDown then -(digitsValue digits : Int) else digitsValue digits
  return Binary64.ofDecimal negative (digitsValue (whole ++ fraction)) (power - fraction.length)

/-- A floating-point number. One that is too large is refused, unless it is negative. -/
def real? (word : List Char) : Option Binary64 := do
  let (negative, rest) := splitSign word
  let signed (x : Binary64) := if negative then x.negate else x
  if rest = ['i', 'n', 'f'] then return signed .infinity
  if rest = ['n', 'a', 'n'] then return signed .nan
  let x ← decimal? negative rest
  if x = .infinity then none else return x

/-- Whether a character may stand in a word. -/
def isWordChar (c : Char) : Bool := isNameChar c || c = '+' || c = '.' || c = ':'

/-- The value of a word. -/
def wordValue? (word : List Char) : Option Toml :=
  if word = ['t', 'r', 'u', 'e'] then some (.boolean true)
  else if word = ['f', 'a', 'l', 's', 'e'] then some (.boolean false)
  else if isMoment word then some (.moment (String.ofList word))
  else
    match integer? word, real? word with
    | some n, _ => if -(2 ^ 63) ≤ n && n < 2 ^ 63 then some (.integer n) else none
    | none, some x => some (.real x)
    | none, none => none

/-- A value that is a word, and what follows it. A date and a time may be two words. -/
def word? (input : List Char) : Option (Toml × List Char) := do
  let (word, rest) := input.span isWordChar
  match rest with
  | ' ' :: after =>
    let (time, after) := after.span isWordChar
    if isDate word && startsTime time then
      if isMoment (word ++ ' ' :: time) then
        return (.moment (String.ofList (word ++ ' ' :: time)), after)
      else none
    else return (← wordValue? word, rest)
  | _ => return (← wordValue? word, rest)

/-! ## Values -/

mutual

/-- A value at the front of some characters, inside at most `depth` others, and what follows it. -/
def value? : (fuel depth : Nat) → List Char → Option (Toml × List Char)
  | 0, _, _ => none
  | fuel + 1, depth, input =>
    match depth, input with
    | depth + 1, '[' :: rest =>
      (items? fuel depth rest).map fun (items, rest) => (.array items, rest)
    | depth + 1, '\x7b' :: rest => do
      let (entries, rest) ← match skipBlanks rest with
        | '\x7d' :: rest => some ([], rest)
        | rest => entries? fuel depth rest
      return (← inline? entries, rest)
    | _, _ =>
      if input.head? = some '"' || input.head? = some '\'' then
        (text? input).map fun (chars, rest) => (.text (String.ofList chars), rest)
      else word? input

/-- The items of an array up to its closing bracket. -/
def items? : (fuel depth : Nat) → List Char → Option (List Toml × List Char)
  | 0, _, _ => none
  | fuel + 1, depth, input =>
    match skipLines false input with
    | ']' :: rest => some ([], rest)
    | input => do
      let (item, rest) ← value? fuel depth input
      match skipLines false rest with
      | ',' :: rest => (items? fuel depth rest).map fun (items, rest) => (item :: items, rest)
      | ']' :: rest => return ([item], rest)
      | _ => none

/-- The entries of a table up to its closing brace, at least one. -/
def entries? :
    (fuel depth : Nat) → List Char → Option (List (List String × Toml) × List Char)
  | 0, _, _ => none
  | fuel + 1, depth, input => do
    let (key, rest) ← key? (nestingLimit - 1) input
    match rest with
    | '=' :: rest =>
      let (value, rest) ← value? fuel depth (skipBlanks rest)
      match skipBlanks rest with
      | ',' :: rest =>
        (entries? fuel depth rest).map fun (entries, rest) => ((key, value) :: entries, rest)
      | '\x7d' :: rest => return ([(key, value)], rest)
      | _ => none
    | _ => none

end

/-! ## Statements -/

/-- A statement at the front of some characters, and what follows its line. -/
def statement? (input : List Char) : Option (Statement × List Char) :=
  match input with
  | '[' :: '[' :: rest => do
    let (path, rest) ← key? (nestingLimit - 1) rest
    match rest with
    | ']' :: ']' :: rest => return (.item path, ← lineEnd? rest)
    | _ => none
  | '[' :: rest => do
    let (path, rest) ← key? (nestingLimit - 1) rest
    match rest with
    | ']' :: rest => return (.header path, ← lineEnd? rest)
    | _ => none
  | _ => do
    let (key, rest) ← key? (nestingLimit - 1) input
    match rest with
    | '=' :: rest =>
      let rest := skipBlanks rest
      let (value, rest) ← value? (2 * rest.length + 2) (nestingLimit - 1) rest
      return (.entry key value, ← lineEnd? rest)
    | _ => none

/-- The statements of a text. -/
def statements? : (fuel : Nat) → List Char → Option (List Statement)
  | 0, _ => none
  | fuel + 1, input =>
    match lineEnd? input with
    | some [] => some []
    | some rest => statements? fuel rest
    | none => do
      let (statement, rest) ← statement? (skipBlanks input)
      return statement :: (← statements? fuel rest)

/-- The characters after a mark of the byte order. -/
def skipByteOrderMark : List Char → List Char
  | '\ufeff' :: rest => rest
  | input => input

/-- The table that a text holds. -/
def parse? (text : String) : Option Table := do
  let input := skipByteOrderMark text.toList
  document? (← statements? (input.length + 1) input)

end VoltageStats.Toml
