import InlineRepl.Invocation.Basic
import InlineRepl.Invocation.LineNumber
import InlineRepl.Text.Control
import InlineRepl.Text.Lines
import InlineRepl.Text.Style

/-!
# Values on the command line

What the value of an option is read as, and everything that can be wrong with a command line.
-/

namespace InlineRepl

/-- Why a command line is not carried out. -/
inductive UsageFault where
  | unknownArgument
  /-- A value that is missing, empty where it may not be, or none of the choices. -/
  | invalidValue
  /-- A value that its option refuses. -/
  | refusedValue (value option reason : String)
  /-- A flag was given a value. -/
  | unneededValue
  | missingArgument
  | missingSubcommand
  | unknownSubcommand
  /-- Two arguments exclude each other, or one is repeated. -/
  | conflict
  /-- Help was asked for. -/
  | help
  /-- The version was asked for. -/
  | version
  /-- Nothing was given where a subcommand is needed. -/
  | nothingGiven
  deriving Repr, DecidableEq

/-- The wording of a refused value, for a terminal. The value and the reason are written as they
are, so sequences in them run on. -/
def refusal (value option reason : String) : String :=
  Text.styled "1;31" "error:" ++ " invalid value '" ++ Text.wrapped "33" value ++ "' for '" ++
    Text.wrapped "34" option ++ "': " ++ reason ++ "\n\nFor more information, try '" ++
    Text.wrapped "34" "--help" ++ "'.\n"

/-- The first line that a reader sees of the wording of a refused value. -/
def UsageFault.message? : UsageFault → Option String
  | refusedValue value option reason =>
    (Text.linesOf (Text.withoutControl (refusal value option reason))).head?
  | _ => none

/-- Help and the version are what was asked for; everything else is a mistake. -/
def UsageFault.exitCode : UsageFault → Nat
  | help | version => 0
  | _ => 2

/-- What a value is read as. -/
inductive ValueKind where
  | path
  | format
  | line
  | span
  | number
  deriving Repr, DecidableEq

/-- A value that has been read. -/
inductive Value where
  | path (p : Path)
  | format (f : OutputFormat)
  | line (n : UInt32)
  | span (range : LineRange)
  | number (n : UInt64)
  deriving Repr, DecidableEq

/-- The output formats by name. -/
def OutputFormat.ofName? : String → Option OutputFormat
  | "text" => some .text
  | "json" => some .json
  | "ndjson" => some .ndjson
  | _ => none

/-- Reads a value. `option` is how the option is named when its value is refused. -/
def ValueKind.read (kind : ValueKind) (option text : String) : Except UsageFault Value :=
  match kind with
  | .path => if text = "" then .error .invalidValue else .ok (.path ⟨text⟩)
  | .format =>
    match OutputFormat.ofName? text with
    | some f => .ok (.format f)
    | none => .error .invalidValue
  | .line =>
    match readLine text.toList with
    | .ok n => .ok (.line n)
    | .error fault => .error (.refusedValue text option fault.message)
  | .span =>
    match readSpan text.toList with
    | .ok range => .ok (.span range)
    | .error fault => .error (.refusedValue text option fault.message)
  | .number =>
    match Text.Unsigned.read UInt64.size text.toList with
    | .ok n => .ok (.number (UInt64.ofNat n))
    | .error fault => .error (.refusedValue text option fault.message)

end InlineRepl
