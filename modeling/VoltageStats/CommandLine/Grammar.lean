/-!
# Command-line grammars

A command line is read argument by argument. Two dashes name a parameter, or as much of its
name as tells it from those before it; one dash is followed by the letters of parameters. What a
parameter takes follows it, in the same argument or in further ones that start with no dash. The
other arguments are operands. Two dashes alone end the parameters. Reading stops at the name of a
command, where a grammar has commands.
-/

namespace VoltageStats.CommandLine

/-- How many values follow a parameter. -/
inductive Arity where
  | none
  | one
  /-- Any number, but at least one. -/
  | several
  deriving DecidableEq, Repr

/-- A named parameter. -/
structure Parameter where
  name : String
  letter : Option Char
  arity : Arity
  /-- Whether it may be named more than once. -/
  isRepeatable : Bool
  /-- Whether it asks for information, which ends the reading. -/
  isRequest : Bool
  deriving DecidableEq, Repr

/-- Why a command line asks for nothing to be done. -/
inductive Refusal where
  /-- It asks for information, with the parameter of that name. -/
  | request (name : String)
  /-- It does not follow the grammar. -/
  | misuse
  deriving DecidableEq, Repr

/-- What may stand on a command line. -/
structure Grammar where
  parameters : List Parameter
  /-- How many operands there may be. -/
  operandCount : Nat
  /-- The names of commands. -/
  commands : List String

/-- How the next argument is taken. -/
inductive Mode where
  /-- As it looks. -/
  | free
  /-- As the value of the parameter that was named last. -/
  | value
  /-- As a further value of the parameter that was named last, or as it looks. -/
  | furtherValue
  /-- As an operand. -/
  | operand
  deriving DecidableEq, Repr

/-- What has been read of a command line. -/
structure Reading where
  /-- The parameters that were named, each with its values, last one first. -/
  named : List (String × List String)
  operands : List String
  mode : Mode
  deriving DecidableEq, Repr

namespace Reading

/-- Nothing has been read. -/
def start : Reading := ⟨[], [], .free⟩

/-- The reading with a parameter and its values. -/
def name (r : Reading) (p : Parameter) (values : List String) (mode : Mode) : Reading :=
  { r with named := (p.name, values) :: r.named, mode := mode }

/-- The reading with a value of the parameter that was named last. -/
def addValue (r : Reading) (value : String) : Reading :=
  match r.named with
  | (name, values) :: named => { r with named := (name, values ++ [value]) :: named }
  | [] => r

/-- How often a parameter was named. -/
def count (r : Reading) (name : String) : Nat := r.named.countP (·.1 = name)

/-- Whether a parameter was named. -/
def has (r : Reading) (name : String) : Bool := r.named.any (·.1 = name)

/-- All values of a parameter. -/
def values (r : Reading) (name : String) : List String :=
  ((r.named.filter (·.1 = name)).reverse.map (·.2)).flatten

end Reading

namespace Grammar

/-- The mode in which the values of a parameter are read. -/
def valueMode (p : Parameter) : Mode := if p.arity = .several then .furtherValue else .value

/-- The reading with an operand. -/
def readOperand (g : Grammar) (r : Reading) (operand : String) (mode : Mode) :
    Except Refusal Reading :=
  if r.operands.length < g.operandCount then
    .ok { r with operands := r.operands ++ [operand], mode := mode }
  else .error .misuse

/-- The parameter with a name, or else the first whose name starts like that. -/
def parameter? (g : Grammar) (name : List Char) : Option Parameter :=
  match g.parameters.find? fun p => p.name.toList = name with
  | some p => some p
  | none => g.parameters.find? fun p => name.isPrefixOf p.name.toList

/-- The reading with an argument that starts with two dashes. -/
def readName (g : Grammar) (r : Reading) (body : List Char) : Except Refusal Reading :=
  let (name, attached) := body.span (· ≠ '=')
  match g.parameter? name with
  | none => .error .misuse
  | some p =>
    match p.arity, attached with
    | .none, [] => if p.isRequest then .error (.request p.name) else .ok (r.name p [] .free)
    | .none, _ :: _ => .error .misuse
    | _, [] => .ok (r.name p [] (valueMode p))
    | _, _ :: value => .ok (r.name p [String.ofList value] .free)

/-- The reading with the letters after one dash. -/
def readLetters (g : Grammar) (r : Reading) : List Char → Except Refusal Reading
  | [] => .ok r
  | c :: rest =>
    match g.parameters.find? fun p => p.letter = some c with
    | none => .error .misuse
    | some p =>
      match p.arity, rest with
      | .none, _ =>
        if p.isRequest then .error (.request p.name) else readLetters g (r.name p [] .free) rest
      | _, [] => .ok (r.name p [] (valueMode p))
      | _, '=' :: value => .ok (r.name p [String.ofList value] .free)
      | _, value => .ok (r.name p [String.ofList value] .free)

/-- The reading with one more argument. -/
def next (g : Grammar) (r : Reading) (argument : String) : Except Refusal Reading :=
  if r.mode = .operand then g.readOperand r argument .operand
  else
    match argument.toList with
    | ['-', '-'] => .ok { r with mode := .operand }
    | '-' :: '-' :: body => g.readName r body
    | '-' :: c :: letters => g.readLetters r (c :: letters)
    | _ =>
      match r.mode with
      | .value => .ok { r.addValue argument with mode := .free }
      | .furtherValue => .ok (r.addValue argument)
      | _ => g.readOperand r argument .free

/-- The name of the command that an argument means: the name itself, or the only one that starts
like that. -/
def command? (g : Grammar) (argument : String) : Option String :=
  match g.commands.filter fun name => argument.toList.isPrefixOf name.toList with
  | [name] => some name
  | _ => if argument ∈ g.commands then some argument else none

/-- Reads arguments up to the name of a command. Yields what was read, and the command with the
arguments after it. -/
def run (g : Grammar) (r : Reading) :
    List String → Except Refusal (Reading × Option (String × List String))
  | [] => .ok (r, none)
  | argument :: rest =>
    match if r.mode = .free then g.command? argument else none with
    | some command => .ok (r, some (command, rest))
    | none => do run g (← g.next r argument) rest

/-- Whether the parameters were named as often as they may be, with the values they need. -/
def isComplete (g : Grammar) (r : Reading) : Bool :=
  g.parameters.all fun p =>
    (p.isRepeatable || r.count p.name ≤ 1) &&
      (p.arity = .none || !r.has p.name || r.values p.name ≠ [])

end Grammar

end VoltageStats.CommandLine
