import VoltageStats.Command.Summary

/-!
# Running invocations

What a command line asks for is run between two messages that tell when it starts and when it has
succeeded.
-/

namespace VoltageStats.Command

/-- The name of the program. -/
def programName : String := "pst_stat"

/-- The version of the program. -/
def programVersion : String := "0.1.0"

/-- The name of a command. -/
def name : Command → String
  | generate _ _ => "generate"
  | summary _ => "summary"

end Command

/-- Runs what a command line asks for. -/
def Invocation.run {m : Type → Type} [Monad m] [Host m] (i : Invocation) :
    ExceptT CommandError m Unit := do
  Command.info s!"{Command.programName} {i.command.name} {Command.programVersion}"
  match i.command with
  | .generate argumentFile given => Command.generateArchive i.isDryRun i.savePath argumentFile given
  | .summary request => Command.summarise request
  Command.info s!"{Command.programName} {i.command.name} complete."

/-- Runs what a command line asks for on a file tree. -/
def Invocation.runOn (i : Invocation) (tree : FileTree) (noise : Nat → Binary64) :
    Except CommandError Unit × Session :=
  (i.run (m := StateM Session)).run ⟨tree, [], [], noise⟩

end VoltageStats
