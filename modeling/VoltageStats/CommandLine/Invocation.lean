import VoltageStats.CommandLine.Grammar
import VoltageStats.Options.Basic

/-!
# Invocations

An invocation is what a command line asks for: to generate an archive, or to summarise one.
`Invocation.ofArguments` reads it. Some parameters may stand before the command or after it; after
it they count more.
-/

namespace VoltageStats

namespace FieldKind

/-- The value that the values of a parameter stand for. -/
def ofArguments? : (kind : FieldKind) → List String → Option kind.Value
  | text, [value] => some value
  | word32, [value] => (Literal.unsigned? 32 value.toList).map UInt32.ofNat
  | word64, [value] => (Literal.unsigned? 64 value.toList).map UInt64.ofNat
  | double, [value] => Literal.double? value.toList
  | doubles, values => (values.mapM fun value => Literal.double? value.toList).map List.toArray
  | words, values => (values.mapM fun value => Literal.unsigned? 32 value.toList).map fun items =>
    (items.map UInt32.ofNat).toArray
  | channels, values => values.mapM fun value => Literal.unsigned? 64 value.toList
  | _, _ => none

end FieldKind

/-- What is asked of a summary. -/
structure SummaryRequest where
  /-- The path of the archive. -/
  path : String
  /-- The position of the only polarisation. -/
  pol : Option Nat
  /-- The position of the only component. -/
  dim : Option Nat
  /-- The only variant. -/
  rfiExcised : Option Bool
  /-- Whether the summary is a JSON document. -/
  isJson : Bool
  deriving DecidableEq, Repr

/-- The commands. -/
inductive Command where
  | generate (argumentFile : Option String) (given : GivenOptions)
  | summary (request : SummaryRequest)

/-- What a command line asks for. -/
structure Invocation where
  verbosity : Nat
  /-- Whether nothing is written. -/
  isDryRun : Bool
  /-- The path of the file that the given options are saved to. -/
  savePath : Option String
  command : Command

namespace CommandLine

/-- The parameters that ask for information. -/
def requests : List Parameter :=
  [⟨"help", some 'h', .none, false, true⟩, ⟨"version", some 'V', .none, false, true⟩]

/-- The parameters that may stand before the command and after it. -/
def commonParameters : List Parameter :=
  [⟨"verbosity", some 'v', .none, true, false⟩, ⟨"dry-run", none, .none, false, false⟩,
    ⟨"save-toml", none, .one, false, false⟩]

/-- The name of an option on the command line. -/
def optionName (o : GeneratorOption) : String := o.name.map fun c => if c = '_' then '-' else c

/-- The parameter for an option. Only the list of channels has several values. -/
def optionParameter (o : GeneratorOption) : Parameter where
  name := optionName o
  letter := if o = .output then some 'o' else none
  arity := if o.kind = .channels then .several else .one
  isRepeatable := o.kind = .channels
  isRequest := false

/-- What stands before the command. -/
def mainGrammar : Grammar where
  parameters := requests ++ commonParameters
  operandCount := 0
  commands := ["generate", "generate-stat", "summary", "summarise"]

/-- What stands after the command that generates an archive. -/
def generateGrammar : Grammar where
  parameters := requests ++ GeneratorOption.all.map optionParameter ++ commonParameters
  operandCount := 1
  commands := []

/-- What stands after the command that summarises an archive. -/
def summaryGrammar : Grammar where
  parameters := requests ++
    [⟨"pol", none, .one, false, false⟩, ⟨"dim", none, .one, false, false⟩,
      ⟨"rfi-excised", none, .one, false, false⟩, ⟨"json", none, .none, false, false⟩] ++
    commonParameters
  operandCount := 1
  commands := []

/-- The value of a parameter with one value, if it is named. It must be readable. -/
def single? {α : Type} (r : Reading) (name : String) (read? : String → Option α) :
    Except Refusal (Option α) :=
  match r.values name with
  | [value] => match read? value with
    | some a => .ok (some a)
    | none => .error .misuse
  | _ => .ok none

/-- The options that were named. -/
def givenOptions (r : Reading) : Except Refusal GivenOptions :=
  let given := GivenOptions.collect? fun o =>
    if r.has (optionName o) then (o.kind.ofArguments? (r.values (optionName o))).map some
    else some none
  match given with
  | some given => .ok given
  | none => .error .misuse

/-- The command that a reading asks for. -/
def generateCommand (r : Reading) : Except Refusal Command := do
  return .generate r.operands.head? (← givenOptions r)

/-- The command that a reading asks for. -/
def summaryCommand (r : Reading) : Except Refusal Command := do
  match r.operands with
  | path :: _ =>
    let index (text : String) := Literal.unsigned? 64 text.toList
    return .summary
      { path := path
        pol := ← single? r "pol" index
        dim := ← single? r "dim" index
        rfiExcised := ← single? r "rfi-excised" Literal.boolean?
        isJson := r.has "json" }
  | [] => throw .misuse

/-- How many times the log is made more detailed. The count is kept in a byte. -/
def verbosityOf (before after : Reading) : Nat :=
  let count := if after.has "verbosity" then after.count "verbosity" else before.count "verbosity"
  count % 256

/-- What the readings before and after a command ask for. -/
def invocation (before after : Reading) (command : Command) : Invocation where
  verbosity := verbosityOf before after
  isDryRun := before.has "dry-run" || after.has "dry-run"
  savePath := (after.values "save-toml" ++ before.values "save-toml").head?
  command := command

end CommandLine

open CommandLine

/-- What a command line asks for. -/
def Invocation.ofArguments (arguments : List String) : Except Refusal Invocation := do
  let (before, found) ← mainGrammar.run .start arguments
  let some (name, arguments) := found | throw .misuse
  let isGenerate := name = "generate" || name = "generate-stat"
  let grammar := if isGenerate then generateGrammar else summaryGrammar
  let (after, _) ← grammar.run .start arguments
  if !grammar.isComplete after || !mainGrammar.isComplete before then throw .misuse
  let command ← if isGenerate then generateCommand after else summaryCommand after
  return invocation before after command

end VoltageStats
