import InlineRepl.Rehearsal.Shell.State

/-!
# Small programs at work

What the small programs have in common: how they complain, how their options are told from other
arguments, and how they read files and the input. Each answers its exit status; `me` is the name
that it was started by, which its complaints begin with.
-/

namespace InlineRepl.Rehearsal.Program

open Shell

/-- A program at work. -/
abbrev Tool := List String → Work Nat

/-- Complains. -/
def warn (me message : String) : Work Unit :=
  writeText 2 (me ++ ": " ++ message ++ "\n")

/-- Says where advice is to be found. -/
def pointToHelp (me : String) : Work Unit :=
  writeText 2 ("Try '" ++ me ++ " --help' for more information.\n")

/-- Complains about how it was called. -/
def adviseWith (status : Nat) (me message : String) : Work Nat := do
  warn me message
  pointToHelp me
  return status

/-- Complains about how it was called; the status is the usual one. -/
def advise (me message : String) : Work Nat :=
  adviseWith 1 me message

/-- Writes to the output. -/
def put (me : String) (bytes : List UInt8) : Work Nat := do
  match (← get).writeFault? 1 with
  | some fault =>
    if bytes = [] then return 0
    else
      warn me ("write error: " ++ fault)
      return 1
  | none =>
    let _ ← write 1 bytes
    return 0

/-- Writes a text to the output. -/
def putText (me text : String) : Work Nat :=
  put me (Text.bytesOf text)

/-- Bytes as characters of their own numbers. -/
def charsOf (bytes : List UInt8) : List Char :=
  bytes.map fun b => Char.ofNat b.toNat

/-- A name in quotes. -/
def quoted (text : String) : String :=
  "'" ++ text ++ "'"

/-! ## Options -/

/-- An option that has been given: its letter, and its argument if it takes one. -/
structure Given where
  letter : Char
  value : String := ""
  deriving Repr, DecidableEq

/-- What a program has been called with. -/
structure Call where
  options : List Given := []
  operands : List String := []

namespace Call

/-- An option has been given. -/
def has (call : Call) (letter : Char) : Bool :=
  call.options.any fun given => given.letter == letter

/-- The argument of an option, the last one that was given. -/
def value? (call : Call) (letter : Char) : Option String :=
  (call.options.reverse.find? fun given => given.letter == letter).map Given.value

/-- The last one of some options that has been given. -/
def last? (call : Call) (letters : List Char) : Option Char :=
  (call.options.reverse.find? fun given => letters.contains given.letter).map Given.letter

end Call

/-- The options of a program: letters, a colon behind each that takes an argument. -/
structure Grammar where
  letters : List Char
  /-- What follows the first other argument is no option. -/
  strict : Bool := false

namespace Grammar

/-- A grammar from its letters. -/
def of (letters : String) : Grammar :=
  { letters := letters.toList }

/-- Whether a letter takes an argument, if it is one of the letters. -/
def takes? (letter : Char) : List Char → Option Bool
  | [] => none
  | c :: rest =>
    if c = letter ∧ c ≠ ':' then some (rest.head? == some ':') else takes? letter rest

/-- Reads the letters of one argument, which may take the argument behind it. -/
def readLetters (grammar : Grammar) (rest : List String) :
    List Char → Except String (List Given × List String)
  | [] => .ok ([], rest)
  | letter :: more =>
    match takes? letter grammar.letters, more, rest with
    | none, _, _ => .error ("invalid option -- '" ++ String.singleton letter ++ "'")
    | some false, more, _ =>
      (readLetters grammar rest more).map fun (given, rest) => ({ letter } :: given, rest)
    | some true, [], value :: others => .ok ([{ letter, value }], others)
    | some true, [], [] =>
      .error ("option requires an argument -- '" ++ String.singleton letter ++ "'")
    | some true, more, rest => .ok ([{ letter, value := String.ofList more }], rest)

/-- Reads arguments. The fault is a complaint. -/
def read (grammar : Grammar) : Nat → List String → Except String Call
  | 0, _ | _, [] => .ok {}
  | fuel + 1, arg :: rest =>
    match arg.toList with
    | ['-', '-'] => .ok { operands := rest }
    | '-' :: '-' :: cs => .error ("unrecognized option '--" ++ String.ofList cs ++ "'")
    | '-' :: c :: cs =>
      match grammar.readLetters rest (c :: cs) with
      | .error fault => .error fault
      | .ok (given, rest) =>
        (read grammar fuel rest).map fun call => { call with options := given ++ call.options }
    | _ =>
      if grammar.strict then .ok { operands := arg :: rest }
      else (read grammar fuel rest).map fun call => { call with operands := arg :: call.operands }

end Grammar

/-- Carries something out with what the program has been called with; a fault in its options makes
it end with the given status. -/
def withCallOr (status : Nat) (me : String) (grammar : Grammar) (args : List String)
    (f : Call → Work Nat) : Work Nat :=
  match grammar.read (args.length + 1) args with
  | .error fault => adviseWith status me fault
  | .ok call => f call

/-- Carries something out with what the program has been called with. -/
def withCall (me : String) (grammar : Grammar) (args : List String) (f : Call → Work Nat) :
    Work Nat :=
  withCallOr 1 me grammar args f

/-- Carries out something for each argument; the status is the worst one. -/
def forEach {α : Type} (args : List α) (f : α → Work Nat) : Work Nat :=
  args.foldlM (fun status arg => return max status (← f arg)) 0

/-- Carries out something for each operand; there must be one. -/
def forOperands (me : String) (args : List String) (f : String → Work Nat) : Work Nat :=
  if args.isEmpty then advise me "missing operand" else forEach args f

/-! ## Reading -/

/-- The wording of what keeps a file from being read, if it cannot be. -/
def readFault? (file : String) : Work (Option String) := do
  let s ← get
  if file = "-" then
    match s.file? 0 with
    | none => return some "Bad file descriptor"
    | some (_, file) => return if file.channel = .directory then some "Is a directory" else none
  else
    match s.tree.readBytes ⟨file⟩ with
    | .error fault => return some (reason fault)
    | .ok _ => return none

/-- The bytes of a file, or what is left of the input, or why it cannot be read. -/
def source (file : String) : Work (Except String (List UInt8)) := do
  match ← readFault? file with
  | some fault => return .error fault
  | none =>
    let s ← get
    if file = "-" ∨ file = "/dev/stdin" then
      match s.streams.lookup 0 with
      | some number => return .ok (← readAll number)
      | none => return .error "Bad file descriptor"
    else return .ok ((s.tree.readBytes ⟨file⟩).toOption.getD [])

/-- What is read from files one after the other, or from the input, with complaints about those that
cannot be read. -/
def sources (me : String) (files : List String) (wording : String → String) :
    Work (List (String × List UInt8) × Nat) :=
  (if files.isEmpty then ["-"] else files).foldlM (fun (read, status) file => do
    match ← source file with
    | .ok bytes => return (read ++ [(file, bytes)], status)
    | .error fault =>
      warn me (wording file ++ ": " ++ fault)
      return (read, 1)) ([], 0)

/-- The lines of bytes, each with its line end. -/
def linesWithEnds (bytes : List UInt8) : List (List UInt8) :=
  match Text.cut 10 bytes with
  | (ended, []) => ended.map (· ++ [10])
  | (ended, rest) => ended.map (· ++ [10]) ++ [rest]

/-! ## Numbers -/

/-- A whole number without a sign. -/
def nat? (text : String) : Option Nat :=
  let cs := text.toList
  if cs ≠ [] ∧ cs.all Char.isDigit then some (readDigits 10 cs.length 0 cs).1 else none

/-- A number with blanks before it, up to a width. -/
def alignedNumber (width n : Nat) : List UInt8 :=
  let digits := Text.bytesOf (toString n)
  List.replicate (width - digits.length) 32 ++ digits

end InlineRepl.Rehearsal.Program
