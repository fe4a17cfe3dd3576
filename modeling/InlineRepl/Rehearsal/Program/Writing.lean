import InlineRepl.Rehearsal.Program.Basic
import InlineRepl.Rehearsal.Shell.Builtins

/-!
# Programs that write or answer

Programs that write what they are told to, answer a condition, send a signal or let time pass, and
one that becomes another program.
-/

namespace InlineRepl.Rehearsal.Program

open Shell

/-! ## Writing -/

/-- What may stand behind a backslash in the words that are echoed. -/
def echoLetters : Escapes :=
  { zero := true, octal := true, stop := true, wide := true }

/-- Writes its arguments. -/
def echo (me : String) : Bool → Bool → Tool
  | newline, escapes, args =>
    match args with
    | arg :: rest =>
      match arg.toList with
      | '-' :: c :: cs =>
        if (c :: cs).all fun c => c == 'n' || c == 'e' || c == 'E' then
          let last := (c :: cs).reverse.find? fun c => c != 'n'
          echo me (newline && !(c :: cs).contains 'n')
            (match last with | some c => c == 'e' | none => escapes) rest
        else finish newline escapes args
      | _ => finish newline escapes args
    | [] => finish newline escapes args
where
  /-- Writes words. -/
  finish (newline escapes : Bool) (args : List String) : Work Nat :=
    let text := List.intercalate [' '] (args.map String.toList)
    let close := if newline then [10] else []
    if escapes then
      match unescaped echoLetters text with
      | (bytes, ends) => put me (if ends then bytes else bytes ++ close)
    else put me (encode text ++ close)

/-- Writes its arguments by a format. -/
def printf (me : String) (args : List String) : Work Nat := do
  match if args.head? = some "--" then args.drop 1 else args with
  | [] => advise me "missing operand"
  | text :: args =>
    let written := format text.toList (args.map String.toList)
    let status ← put me written.bytes
    for (arg, begins) in written.complaints do
      warn me (quoted (String.ofList arg) ++
        (if begins then ": value not completely converted" else ": expected a numeric value"))
    match written.fault with
    | some fault =>
      warn me (String.ofList fault)
      return 1
    | none => return if written.complaints.isEmpty then status else 1

/-- Writes the working directory. -/
def pwd (me : String) (args : List String) : Work Nat :=
  withCall me (.of "LP") args fun _ => do
    putText me ((Tree.pathOf (← get).tree.cwd).text ++ "\n")

/-! ## Answering -/

/-- Answers a condition. -/
def test (me : String) (args : List String) : Work Nat := do
  let (args, closed) :=
    if me.endsWith "[" then (args.dropLast, args.getLast? == some "]") else (args, true)
  if closed = false then
    warn me ("missing " ++ quoted "]")
    return 2
  else
    match Condition.answer (← get).tree args with
    | .ok answer => return if answer then 0 else 1
    | .error fault =>
      warn me fault
      return 2

/-- Sends signals. -/
def kill (me : String) (args : List String) : Work Nat := do
  modify fun s => { s with name := me.toList }
  Builtins.kill (args.map String.toList)
  return (← get).status

/-! ## Time -/

/-- The milliseconds of a time in seconds. -/
def milliseconds? (text : String) : Option Nat :=
  let whole := text.toList.takeWhile Char.isDigit
  let part := (text.toList.drop (whole.length + 1)).takeWhile Char.isDigit
  let rest := text.toList.drop whole.length
  if (whole = [] ∧ part = []) ∨ (rest ≠ [] ∧ rest ≠ '.' :: part) then none
  else
    some ((readDigits 10 whole.length 0 whole).1 * 1000 +
      (readDigits 10 3 0 (part ++ ['0', '0', '0'])).1)

/-- Lets time pass. -/
def sleep (me : String) (args : List String) : Work Nat :=
  withCall me (.of "") args fun call => do
    let args := call.operands
    match args.filter fun arg => (milliseconds? arg).isNone with
    | [] =>
      if args.isEmpty then advise me "missing operand"
      else
        modify fun s => { s with now := s.now + (args.filterMap milliseconds?).foldl (· + ·) 0 }
        return 0
    | bad =>
      for arg in bad do
        warn me ("invalid time interval " ++ quoted arg)
      pointToHelp me
      return 1

/-! ## Becoming another program -/

/-- How a program ends that may end in another one. -/
inductive Next where
  | done (status : Nat)
  /-- It becomes another program; the wording is that of a complaint about it. -/
  | become (argv : List String) (wording : String)

/-- The status where a program cannot be started. -/
def failedStart (fault : FileFault) : Nat :=
  if fault = .notFound then 127 else 126

/-- Sets variables at the front of arguments. The answer is what follows them. -/
def setVariables : List String → Work (List String)
  | [] => return []
  | arg :: rest => do
    let cs := arg.toList
    if cs.contains '=' then
      let name := cs.takeWhile (· != '=')
      modify fun s =>
        let s := s.unassign name
        { s with
          values := s.values ++ [(name, cs.drop (name.length + 1))]
          exported := name :: s.exported }
      setVariables rest
    else return arg :: rest

/-- Runs a program with other variables, or writes them. -/
def env (me : String) (args : List String) : Work Next := do
  let grammar : Grammar := { Grammar.of "i" with strict := true }
  match grammar.read (args.length + 1) args with
  | .error fault => return .done (← adviseWith 125 me fault)
  | .ok call =>
    if call.has 'i' then modify fun s => { s with values := [], exported := [] }
    else modify fun s => { s with values := s.environment, exported := s.environment.map Prod.fst }
    match ← setVariables call.operands with
    | [] =>
      return .done (← put me ((← get).environment.flatMap fun (name, value) =>
        encode (name ++ '=' :: value ++ ['\n'])))
    | program :: args => return .become (program :: args) (quoted program)

end InlineRepl.Rehearsal.Program
