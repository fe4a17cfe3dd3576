import InlineRepl.Invocation.Level

/-!
# Reading an invocation

The levels of this program's command line, and the invocation that they amount to. The options that
all levels share may be given on any of them; the deepest level that gives one decides.

A deeper level is checked before what is pending on the level above it. Arguments that exclude each
other are reported before arguments that are missing.
-/

namespace InlineRepl.Usage

/-! ## The levels -/

/-- The options that every level has. -/
def sharedOptions : List OptionSpec :=
  [{ name := "format", short := some 'f', placeholder := "FORMAT", kind := .format },
    { name := "settings", placeholder := "FILE", kind := .path }]

/-- The flags that every level has. -/
def sharedFlags : List FlagSpec :=
  [{ name := "verbose", short := some 'v', role := .counted },
    { name := "help", short := some 'h', role := .help }]

/-- The outermost level. -/
def rootLevel : Level :=
  { options := sharedOptions
    flags := { name := "version", short := some 'V', role := .version } :: sharedFlags
    subcommands := ["eval", "connect", "config", "help"] }

/-- The level of an evaluation. -/
def evalLevel : Level :=
  { options :=
      { name := "line", placeholder := "N", kind := .line } ::
        { name := "start", placeholder := "S", kind := .line } ::
        { name := "end", placeholder := "E", kind := .line } ::
        { name := "watch", placeholder := "S:E", kind := .span, repeats := true } ::
        { name := "idle-ms", placeholder := "MS", kind := .number } ::
        { name := "timeout", placeholder := "SECS", kind := .number } ::
        { name := "images", placeholder := "DIR", kind := .path } :: sharedOptions
    flags := sharedFlags
    positional := some "FILE" }

/-- The level of a connection. -/
def connectLevel : Level :=
  { options := { name := "timeout", placeholder := "SECS", kind := .number } :: sharedOptions
    flags := { name := "hold", role := .single } :: sharedFlags
    positional := some "DIR" }

/-- The level of the settings. -/
def configLevel : Level :=
  { options := sharedOptions
    flags := sharedFlags
    subcommands := ["show", "fsharp-exe", "ifsharp-exe", "bridge-script", "help"] }

/-- The level of a view of the settings. -/
def viewLevel : Level :=
  { options := sharedOptions, flags := sharedFlags }

/-- The level of a setting. -/
def settingLevel : Level :=
  { options := sharedOptions, flags := sharedFlags, positional := some "PATH" }

/-! ## Shared options -/

/-- The shared options as one level gives them. -/
structure Shared where
  verbosity : Option Nat := none
  format : Option OutputFormat := none
  settings : Option Path := none
  deriving Repr, DecidableEq

/-- The highest verbosity. -/
def maxVerbosity : Nat := 255

/-- The shared options of a level. -/
def Shared.ofFound (found : Found) : Shared :=
  let count := found.count "verbose"
  { verbosity := if count = 0 then none else some (min count maxVerbosity)
    format := found.format? "format"
    settings := found.path? "settings" }

/-- The shared options of a level, those of the level above where it gives none. -/
def Shared.under (deep above : Shared) : Shared :=
  { verbosity := deep.verbosity.or above.verbosity
    format := deep.format.or above.format
    settings := deep.settings.or above.settings }

/-! ## Commands -/

/-- What the words behind a request for help amount to: they have to name a subcommand. -/
def helpOn (subcommands : List String) : List String → UsageFault
  | [] => .help
  | [name] => if name ∈ subcommands then .help else .unknownSubcommand
  | _ => .unknownSubcommand

/-- What a request for help on the outermost level amounts to. -/
def rootHelp : List String → UsageFault
  | "config" :: rest => helpOn configLevel.subcommands rest
  | words => helpOn rootLevel.subcommands words

/-- The evaluation that a level asks for. -/
def evalArgs (found : Found) : Except UsageFault EvalArgs :=
  let line := found.line? "line"
  let start := found.line? "start"
  let stop := found.line? "end"
  if line.isSome ∧ (start.isSome ∨ stop.isSome) then .error .conflict
  else
    match found.path? "FILE" with
    | none => .error .missingArgument
    | some file =>
      if start.isSome ≠ stop.isSome then .error .missingArgument
      else
        .ok
          { file, line, start, stop
            watches := found.spans "watch"
            idle := (found.number? "idle-ms").getD 1500
            timeout := (found.number? "timeout").getD 60
            images := found.path? "images" }

/-- The connection that a level asks for. -/
def connectArgs (found : Found) : ConnectArgs :=
  { dir := found.path? "DIR"
    hold := found.count "hold" ≠ 0
    timeout := (found.number? "timeout").getD 30 }

/-- The setting that a subcommand sets. -/
def keyOf? : String → Option SettingKey
  | "fsharp-exe" => some .interpreter
  | "ifsharp-exe" => some .notebookInterpreter
  | "bridge-script" => some .bridgeScript
  | _ => none

/-- Reads what is to be done with the settings. -/
def readConfig (words : List String) : Except UsageFault (ConfigAction × Shared) := do
  let (scan, entry) ← configLevel.scan {} words
  match entry with
  | none => throw (Level.unentered (← scan.settle).found)
  | some ("help", rest) => throw (helpOn configLevel.subcommands rest)
  | some (name, rest) =>
    match keyOf? name with
    | some key =>
      let found ← settingLevel.readLast rest
      let above ← scan.settle
      return (.set key (found.path? "PATH"),
        (Shared.ofFound found).under (Shared.ofFound above.found))
    | none =>
      let found ← viewLevel.readLast rest
      let above ← scan.settle
      return (.view, (Shared.ofFound found).under (Shared.ofFound above.found))

/-- Reads a command. -/
def readCommand (name : String) (words : List String) : Except UsageFault (Command × Shared) := do
  if name = "eval" then
    let found ← evalLevel.readLast words
    return (.eval (← evalArgs found), Shared.ofFound found)
  else if name = "connect" then
    let found ← connectLevel.readLast words
    return (.connect (connectArgs found), Shared.ofFound found)
  else
    let (action, shared) ← readConfig words
    return (.config action, shared)

end InlineRepl.Usage

namespace InlineRepl

/-- Reads a command line, without the program's name. -/
def Invocation.read (words : List String) : Except UsageFault Invocation := do
  let (scan, entry) ← Usage.rootLevel.scan {} words
  match entry with
  | none => throw (Usage.Level.unentered (← scan.settle).found)
  | some ("help", rest) => throw (Usage.rootHelp rest)
  | some (name, rest) =>
    let (command, deep) ← Usage.readCommand name rest
    let above ← scan.settle
    let shared := deep.under (Usage.Shared.ofFound above.found)
    return {
      command
      verbosity := shared.verbosity.getD 0
      format := shared.format.getD .text
      settings := shared.settings }

end InlineRepl
