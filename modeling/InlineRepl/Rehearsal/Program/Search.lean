import InlineRepl.Rehearsal.Program.Basic

/-!
# Programs that search

Programs that select lines, by an expression or by their numbers. An expression is a row of atoms,
each for one byte, or for any number of them where a star follows.
-/

namespace InlineRepl.Rehearsal.Program

open Shell

/-! ## Expressions -/

/-- What a byte is matched by. -/
inductive Atom where
  | byte (b : UInt8)
  | any
  | oneOf (members : List UInt8) (inverted : Bool)
  deriving Repr, DecidableEq

/-- The byte is one that the atom matches. -/
def Atom.accepts : Atom → UInt8 → Bool
  | .byte b, c => b == c
  | .any, _ => true
  | .oneOf members inverted, c => members.contains c != inverted

/-- An expression: atoms, each of them once or any number of times. -/
structure Expression where
  /-- It matches at the start of a line only. -/
  atStart : Bool := false
  atoms : List (Atom × Bool) := []
  /-- It matches at the end of a line only. -/
  atEnd : Bool := false
  deriving Repr, DecidableEq

namespace Expression

/-- How many bytes the longest match takes that begins at the front, if there is one. -/
def length? (atEnd : Bool) : List (Atom × Bool) → List UInt8 → Option Nat
  | [], bytes => if atEnd && !bytes.isEmpty then none else some 0
  | (atom, many) :: rest, bytes =>
    let run := (bytes.takeWhile atom.accepts).length
    let counts := if many then (List.range (run + 1)).reverse else if 0 < run then [1] else []
    counts.findSome? fun count => (length? atEnd rest (bytes.drop count)).map (count + ·)

/-- The first match in a line: where it begins and how many bytes it takes. -/
def find? (expression : Expression) (line : List UInt8) : Option (Nat × Nat) :=
  let starts := if expression.atStart then [0] else List.range (line.length + 1)
  starts.findSome? fun i =>
    (length? expression.atEnd expression.atoms (line.drop i)).map fun length => (i, length)

/-- The members of brackets, and what follows them. -/
def members : List UInt8 → List UInt8 × List UInt8
  | [] => ([], [])
  | 93 :: rest => ([], rest)
  | low :: 45 :: high :: rest =>
    if high = 93 then ([low, 45], rest)
    else
      let range := (List.range (high.toNat + 1 - low.toNat)).map fun i =>
        UInt8.ofNat (low.toNat + i)
      match members rest with
      | (more, rest) => (range ++ more, rest)
  | b :: rest => match members rest with | (more, rest) => (b :: more, rest)

/-- Reads the atoms of an expression. The fuel bounds their number. -/
def readAtoms : Nat → List UInt8 → List (Atom × Bool) × Bool
  | 0, _ | _, [] => ([], false)
  | _, [36] => ([], true)
  | fuel + 1, b :: rest =>
    let (atom, rest) : Atom × List UInt8 :=
      match b, rest with
      | 46, rest => (.any, rest)
      | 92, c :: rest => (.byte c, rest)
      | 91, 94 :: rest => match members rest with | (found, rest) => (.oneOf found true, rest)
      | 91, rest => match members rest with | (found, rest) => (.oneOf found false, rest)
      | b, rest => (.byte b, rest)
    let many := rest.head? == some 42
    match readAtoms fuel (if many then rest.drop 1 else rest) with
    | (atoms, atEnd) => ((atom, many) :: atoms, atEnd)

/-- Reads an expression. -/
def read (bytes : List UInt8) : Expression :=
  let atStart := bytes.head? == some 94
  match readAtoms bytes.length (if atStart then bytes.drop 1 else bytes) with
  | (atoms, atEnd) => { atStart, atoms, atEnd }

/-- The expression of a text that stands for itself. -/
def literal (bytes : List UInt8) : Expression :=
  { atoms := bytes.map fun b => (.byte b, false) }

end Expression

/-! ## By an expression -/

/-- Writes the lines of files that match an expression, or tells how many there are. -/
def grep (me : String) (args : List String) : Work Nat := do
  match (Grammar.of "qvcnF").read (args.length + 1) args with
  | .error fault => adviseWith 2 me fault
  | .ok call =>
    let expression := (if call.has 'F' then Expression.literal else Expression.read)
      (Text.bytesOf (call.operands.headD ""))
    let files := call.operands.drop 1
    let titled := decide (1 < files.length)
    let (read, status) ← sources me files id
    let hits (bytes : List UInt8) : List (List UInt8 × Nat) :=
      (Text.cutLines 10 bytes).zipIdx.filter fun entry =>
        (expression.find? entry.1).isSome != call.has 'v'
    let found := read.map fun entry => (entry.1, hits entry.2)
    if call.has 'q' = false then
      for (file, lines) in found do
        let title := if titled then file ++ ":" else ""
        if call.has 'c' then
          let _ ← putText me (title ++ toString lines.length ++ "\n")
        else
          for (line, i) in lines do
            let number := if call.has 'n' then toString (i + 1) ++ ":" else ""
            let _ ← put me (Text.bytesOf (title ++ number) ++ line ++ [10])
    return if status ≠ 0 then 2 else if found.all fun entry => entry.2.isEmpty then 1 else 0

/-! ## By a script -/

namespace Editor

/-- A line that is named. -/
inductive Address where
  | line (number : Nat)
  | last
  | pattern (expression : Expression)
  deriving Repr, DecidableEq

/-- What is done with a line. -/
inductive Action where
  | print
  | delete
  | quit
  | substitute (expression : Expression) (target : List UInt8) (everywhere : Bool)
  deriving Repr, DecidableEq

/-- An action for the lines that are named, all of them if none is. -/
structure Command where
  address : Option Address := none
  action : Action
  deriving Repr, DecidableEq

/-- Reads the line that a command is for. -/
def readAddress (cs : List Char) : Option Address × List Char :=
  match cs with
  | '$' :: rest => (some .last, rest)
  | '/' :: rest =>
    let text := rest.takeWhile (· != '/')
    (some (.pattern (Expression.read (encode text))), rest.drop (text.length + 1))
  | cs =>
    let digits := cs.takeWhile Char.isDigit
    if digits = [] then (none, cs)
    else (some (.line (readDigits 10 digits.length 0 digits).1), cs.drop digits.length)

/-- Reads a command. The fault is a complaint. -/
def readCommand (cs : List Char) : Except String Command :=
  match readAddress cs with
  | (address, ['p']) => .ok { address, action := .print }
  | (address, ['d']) => .ok { address, action := .delete }
  | (address, ['q']) => .ok { address, action := .quit }
  | (address, 's' :: mark :: rest) =>
    match Text.split mark rest with
    | [source, target, flags] =>
      .ok { address
            action := .substitute (Expression.read (encode source)) (encode target)
              (flags == ['g']) }
    | _ => .error "unterminated \x60s' command"
  | (_, []) => .error "missing command"
  | (_, c :: _) => .error ("unknown command: \x60" ++ String.singleton c ++ "'")

/-- Replaces the first match in a line, or all of them. The fuel bounds their number. -/
def replaced (expression : Expression) (target : List UInt8) (everywhere : Bool) :
    Nat → List UInt8 → List UInt8
  | 0, line => line
  | fuel + 1, line =>
    match expression.find? line with
    | none => line
    | some (start, length) =>
      let rest := line.drop (start + length)
      line.take start ++ target ++
        if everywhere ∧ 0 < length ∧ expression.atStart = false then
          replaced expression target everywhere fuel rest
        else rest

/-- The line is the one that is named. -/
def isAt (line : List UInt8) (number : Nat) (isLast : Bool) : Option Address → Bool
  | none => true
  | some (.line other) => number == other
  | some .last => isLast
  | some (.pattern expression) => (expression.find? line).isSome

/-- What is written for a line: what the commands print, and what is left of it if it is not
deleted. The last answer is whether the end has come. -/
def edit (number : Nat) (isLast : Bool) :
    List Command → List UInt8 → List (List UInt8) × Option (List UInt8) × Bool
  | [], line => ([], some line, false)
  | command :: commands, line =>
    if isAt line number isLast command.address then
      match command.action with
      | .print =>
        match edit number isLast commands line with
        | (printed, rest) => (line :: printed, rest)
      | .delete => ([], none, false)
      | .quit => ([], some line, true)
      | .substitute expression target everywhere =>
        edit number isLast commands
          (replaced expression target everywhere (line.length + 1) line)
    else edit number isLast commands line

/-- What is written for the lines of a text, their numbers counting from the given one. -/
def editAll (quiet : Bool) (commands : List Command) : Nat → List (List UInt8) → List (List UInt8)
  | _, [] => []
  | number, line :: lines =>
    match edit number lines.isEmpty commands line with
    | (printed, left, ended) =>
      printed ++ (if quiet then [] else left.toList) ++
        if ended then [] else editAll quiet commands (number + 1) lines

end Editor

/-- Carries a script out for each line of files. -/
def sed (me : String) (args : List String) : Work Nat :=
  withCall me (.of "n") args fun call => do
    let script := (call.operands.headD "").toList
    match (Text.split ';' script).mapM Editor.readCommand with
    | .error fault =>
      warn me ("-e expression #1, char " ++ toString script.length ++ ": " ++ fault)
      return 1
    | .ok commands =>
      let (read, status) ← sources me (call.operands.drop 1) ("can't read " ++ ·)
      let lines := (read.flatMap Prod.snd |> Text.cutLines 10)
      let written := Editor.editAll (call.has 'n') commands 1 lines
      return max (2 * status) (← put me (written.flatMap (· ++ [10])))

end InlineRepl.Rehearsal.Program
