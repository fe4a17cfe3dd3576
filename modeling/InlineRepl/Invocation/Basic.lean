import InlineRepl.Path
import InlineRepl.Settings.Basic
import InlineRepl.Wire.Position

/-!
# Invocations

What one run of the program is asked to do: one of three commands, and the options that all of them
share.
-/

namespace InlineRepl

/-- How results are written. -/
inductive OutputFormat where
  /-- For people. -/
  | text
  /-- An indented envelope. -/
  | json
  /-- An envelope on one line. -/
  | ndjson
  deriving Repr, DecidableEq

/-- What to evaluate, and how long to wait. Lines count from zero. -/
structure EvalArgs where
  file : Path
  /-- Evaluate the expression at this line. -/
  line : Option UInt32 := none
  /-- Evaluate the block from this line … -/
  start : Option UInt32 := none
  /-- … to this one. -/
  stop : Option UInt32 := none
  /-- The watched blocks. -/
  watches : List LineRange := []
  /-- Stop when nothing has come for so many milliseconds. -/
  idle : UInt64 := 1500
  /-- Give up after so many seconds. -/
  timeout : UInt64 := 60
  /-- Where pictures are written. -/
  images : Option Path := none
  deriving Repr, DecidableEq

/-- The block to evaluate, if both its ends are given. -/
def EvalArgs.block (args : EvalArgs) : Option LineRange :=
  match args.start, args.stop with
  | some start, some stop => some { start, stop }
  | _, _ => none

/-- Which project to connect to. -/
structure ConnectArgs where
  dir : Option Path := none
  /-- Keep the session until it ends. -/
  hold : Bool := false
  /-- Give up after so many seconds. -/
  timeout : UInt64 := 30
  deriving Repr, DecidableEq

/-- What to do with the settings. -/
inductive ConfigAction where
  | view
  /-- Set a path, or clear it. -/
  | set (key : SettingKey) (value : Option Path)
  deriving Repr, DecidableEq

/-- The commands of the program. -/
inductive Command where
  | eval (args : EvalArgs)
  | connect (args : ConnectArgs)
  | config (action : ConfigAction)
  deriving Repr, DecidableEq

/-- The name under which a command reports. -/
def Command.name : Command → String
  | eval _ => "eval"
  | connect _ => "connect"
  | config _ => "config"

/-- One run of the program. -/
structure Invocation where
  command : Command
  verbosity : Nat := 0
  format : OutputFormat := .text
  /-- The settings file to use instead of the user's own. -/
  settings : Option Path := none
  deriving Repr, DecidableEq

end InlineRepl
