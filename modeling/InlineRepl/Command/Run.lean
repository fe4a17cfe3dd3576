import InlineRepl.Command.Configure
import InlineRepl.Command.Connect
import InlineRepl.Command.Evaluate
import InlineRepl.Invocation.Reading

/-!
# Runs of the program

A command line is read, its command carried out, and a fault reported: on standard error, unless the
user has seen a popup already, and as an envelope where the output is meant for programs.
-/

namespace InlineRepl

/-- What a run of the program leaves behind. -/
structure RunResult where
  /-- None while the program is still running. -/
  code : Option Nat
  out : String := ""
  err : String := ""
  tree : Tree

namespace RunResult

/-- The name and version of the program. -/
def versionText : String := "fsi-eval 0.3.0"

/-- The exit code of a program that did not survive. -/
def crashCode : Nat := 101

/-- The end of a command. -/
def ofOutcome (command : String) (format : OutputFormat) (color : Bool) (outcome : Outcome) :
    RunResult :=
  match outcome.ending with
  | .done => { code := some 0, out := outcome.out, err := outcome.err, tree := outcome.tree }
  | .overflow =>
    { code := some crashCode, out := outcome.out, err := outcome.err, tree := outcome.tree }
  | .waiting => { code := none, out := outcome.out, err := outcome.err, tree := outcome.tree }
  | .failed fault =>
    { code := some 1
      tree := outcome.tree
      out :=
        if format = .text then outcome.out
        else outcome.out ++ (Envelope.ofFault command fault).print format
      err :=
        if fault.isReported then outcome.err
        else outcome.err ++ Text.styledIf color "1;31" "error:" ++ " " ++ fault.message ++ "\n" }

/-- The end of a run whose command line is not carried out. -/
def ofUsageFault (tree : Tree) (fault : UsageFault) : RunResult :=
  { code := some fault.exitCode
    tree
    out := if fault = .version then versionText ++ "\n" else "" }

end RunResult

/-- The file that the settings of an invocation are kept in. -/
def Invocation.settingsFile (invocation : Invocation) (env : Environment) : Path :=
  invocation.settings.getD (Settings.userFile env.configHome env.home env.configDir)

/-- Carries an invocation out. -/
def Invocation.run (invocation : Invocation) (env : Environment) : Outcome :=
  let file := invocation.settingsFile env
  match invocation.command with
  | .eval args => Evaluate.run env file invocation.format args
  | .connect args => Connect.run env file invocation.format args
  | .config action => Configure.run env file invocation.format action

/-- Runs the program on a command line. -/
def Environment.run (env : Environment) (words : List String) : RunResult :=
  match Invocation.read words with
  | .error fault => .ofUsageFault env.tree fault
  | .ok invocation =>
    .ofOutcome invocation.command.name invocation.format env.color (invocation.run env)

end InlineRepl
