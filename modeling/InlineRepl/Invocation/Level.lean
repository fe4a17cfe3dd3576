import InlineRepl.Invocation.Value

/-!
# One level of a command line

The words of a command line are read level by level: a level knows its options, its flags, perhaps
one positional argument, and the subcommands that lead to the next level.

* An option takes one value, attached (`--name=v`, `-nv`, `-n=v`) or as the next word, unless that
  word looks like an option itself.
* A value is checked when the next option, flag or positional argument comes, or the level ends; an
  unknown word is reported without that check.
* Behind two dashes every word is positional.
-/

namespace InlineRepl.Usage

/-- An option with a value. -/
structure OptionSpec where
  name : String
  short : Option Char := none
  /-- The value's name. -/
  placeholder : String
  kind : ValueKind
  /-- It may be given more than once. -/
  repeats : Bool := false
  deriving Repr, DecidableEq

/-- How an option is named in a message. -/
def OptionSpec.shown (option : OptionSpec) : String :=
  "--" ++ option.name ++ " <" ++ option.placeholder ++ ">"

/-- What a flag does. -/
inductive FlagRole where
  /-- It may be given once. -/
  | single
  /-- It is counted. -/
  | counted
  | help
  | version
  deriving Repr, DecidableEq

/-- An option without a value. -/
structure FlagSpec where
  name : String
  short : Option Char := none
  role : FlagRole
  deriving Repr, DecidableEq

/-- One level of a command line. -/
structure Level where
  options : List OptionSpec
  flags : List FlagSpec
  /-- The name of the positional argument, which is a path. -/
  positional : Option String := none
  subcommands : List String := []

/-- What has been found on a level. -/
structure Found where
  values : List (String × Value) := []
  flags : List String := []
  deriving Repr

namespace Found

/-- Nothing has been found. -/
def isEmpty (found : Found) : Bool :=
  found.values.isEmpty && found.flags.isEmpty

/-- How often a flag has been given. -/
def count (found : Found) (name : String) : Nat :=
  found.flags.count name

/-- The values given under a name, in order. -/
def all (found : Found) (name : String) : List Value :=
  (found.values.filter fun entry => entry.1 == name).map Prod.snd

/-- The path given under a name. -/
def path? (found : Found) (name : String) : Option Path :=
  (found.all name).findSome? fun
    | .path p => some p
    | _ => none

/-- The line given under a name. -/
def line? (found : Found) (name : String) : Option UInt32 :=
  (found.all name).findSome? fun
    | .line n => some n
    | _ => none

/-- The number given under a name. -/
def number? (found : Found) (name : String) : Option UInt64 :=
  (found.all name).findSome? fun
    | .number n => some n
    | _ => none

/-- The format given under a name. -/
def format? (found : Found) (name : String) : Option OutputFormat :=
  (found.all name).findSome? fun
    | .format f => some f
    | _ => none

/-- The spans given under a name, in order. -/
def spans (found : Found) (name : String) : List LineRange :=
  (found.all name).filterMap fun
    | .span range => some range
    | _ => none

end Found

/-- What has come and is not yet checked. -/
inductive Pending where
  | nothing
  /-- An option without its value. -/
  | awaiting (option : OptionSpec)
  | value (option : OptionSpec) (text : String)
  | positional (name text : String)
  deriving Repr, DecidableEq

/-- How far a level has been read. -/
structure Scan where
  found : Found := {}
  pending : Pending := .nothing
  /-- The positional argument has come. -/
  positionalSeen : Bool := false
  /-- Two dashes have come. -/
  onlyPositional : Bool := false
  deriving Repr

namespace Scan

/-- Adds the value of an option. -/
def add (scan : Scan) (option : OptionSpec) (text : String) : Except UsageFault Scan :=
  if option.repeats = false ∧ (scan.found.all option.name) ≠ [] then .error .conflict
  else
    match option.kind.read option.shown text with
    | .error fault => .error fault
    | .ok value =>
      .ok { scan with
        pending := .nothing
        found := { scan.found with values := scan.found.values ++ [(option.name, value)] } }

/-- Checks what has come. -/
def settle (scan : Scan) : Except UsageFault Scan :=
  match scan.pending with
  | .nothing => .ok scan
  | .awaiting _ => .error .invalidValue
  | .value option text => scan.add option text
  | .positional name text =>
    scan.add { name, placeholder := name, kind := .path } text

/-- Takes a flag. -/
def flag (scan : Scan) (flag : FlagSpec) : Except UsageFault Scan := do
  let scan ← scan.settle
  let marked := { scan with found := { scan.found with flags := scan.found.flags ++ [flag.name] } }
  match flag.role with
  | .help => throw .help
  | .version => throw .version
  | .counted => return marked
  | .single => if scan.found.count flag.name = 0 then return marked else throw .conflict

/-- Takes an option whose value is to come. -/
def await (scan : Scan) (option : OptionSpec) : Except UsageFault Scan := do
  let scan ← scan.settle
  return { scan with pending := .awaiting option }

/-- Takes an option with its value. -/
def attach (scan : Scan) (option : OptionSpec) (text : String) : Except UsageFault Scan := do
  let scan ← scan.settle
  scan.add option text

/-- The next word is the value of an option. -/
def awaits (scan : Scan) : Bool :=
  match scan.pending with
  | .awaiting _ => true
  | _ => false

end Scan

/-- How a word looks. -/
inductive Word where
  /-- Two dashes. -/
  | dashes
  | long (name : String) (attached : Option String)
  /-- The letters behind one dash, at least one. -/
  | short (letters : List Char)
  | plain
  deriving Repr, DecidableEq

/-- How a word looks. One dash alone looks like nothing special. -/
def Word.ofText (text : String) : Word :=
  match text.toList with
  | ['-', '-'] => .dashes
  | '-' :: '-' :: rest =>
    match Text.splitAtFirst? '=' rest with
    | some (name, value) => .long (String.ofList name) (some (String.ofList value))
    | none => .long (String.ofList rest) none
  | '-' :: c :: rest => .short (c :: rest)
  | _ => .plain

namespace Level

/-- Takes a positional word. -/
def takePositional (level : Level) (scan : Scan) (text : String) : Except UsageFault Scan :=
  match level.positional, scan.positionalSeen with
  | some name, false => do
    let scan ← scan.settle
    return { scan with pending := .positional name text, positionalSeen := true }
  | _, _ =>
    if level.subcommands.isEmpty ∨ (scan.onlyPositional ∧ text ∈ level.subcommands) then
      .error .unknownArgument
    else .error .unknownSubcommand

/-- Takes a long option or flag. -/
def takeLong (level : Level) (scan : Scan) (name : String) (attached : Option String) :
    Except UsageFault Scan :=
  match level.flags.find? (fun f => f.name == name), level.options.find? (fun o => o.name == name),
      attached with
  | some f, _, none => scan.flag f
  | some _, _, some _ => .error .unneededValue
  | none, some o, some text => scan.attach o text
  | none, some o, none => scan.await o
  | none, none, _ => .error .unknownArgument

/-- Takes the letters of short options and flags. -/
def takeShort (level : Level) : Scan → List Char → Except UsageFault Scan
  | scan, [] => .ok scan
  | scan, c :: rest =>
    match level.flags.find? (fun f => f.short == some c),
        level.options.find? (fun o => o.short == some c), rest with
    | some f, _, rest =>
      match scan.flag f with
      | .ok scan => takeShort level scan rest
      | .error fault => .error fault
    | none, some o, [] => scan.await o
    | none, some o, '=' :: text => scan.attach o (String.ofList text)
    | none, some o, text => scan.attach o (String.ofList text)
    | none, none, _ => .error .unknownArgument

/-- Takes one word. -/
def take (level : Level) (scan : Scan) (text : String) : Except UsageFault Scan :=
  if scan.onlyPositional then level.takePositional scan text
  else
    match Word.ofText text with
    | .dashes => .ok { scan with onlyPositional := true }
    | .long name attached => level.takeLong scan name attached
    | .short letters => level.takeShort scan letters
    | .plain =>
      match scan.pending with
      | .awaiting option => .ok { scan with pending := .value option text }
      | _ => level.takePositional scan text

/-- The word leads to the next level. -/
def enters (level : Level) (scan : Scan) (text : String) : Bool :=
  !scan.onlyPositional && !scan.awaits && level.subcommands.contains text

/-- A subcommand and the words behind it. -/
abbrev Entry := String × List String

/-- Reads words up to a subcommand or the end. -/
def scan (level : Level) : Scan → List String → Except UsageFault (Scan × Option Entry)
  | done, [] => .ok (done, none)
  | done, text :: rest =>
    if level.enters done text then .ok (done, some (text, rest))
    else
      match level.take done text with
      | .ok done => scan level done rest
      | .error fault => .error fault

/-- Reads a level that leads nowhere. -/
def readLast (level : Level) (words : List String) : Except UsageFault Found := do
  let (done, _) ← level.scan {} words
  return (← done.settle).found

/-- What is wrong with a level that should have led on. -/
def unentered (found : Found) : UsageFault :=
  if found.isEmpty then .nothingGiven else .missingSubcommand

end Level

end InlineRepl.Usage
