import InlineRepl.Rehearsal.Shell.Printing
import InlineRepl.Tree.Basic

/-!
# Conditions

What the test command answers: questions about texts, numbers and files, joined by and, or, not and
brackets. A word that names an operator is one only where an operator can stand.
-/

namespace InlineRepl.Rehearsal.Shell.Condition

/-- Questions about one word. -/
def unaries : List String :=
  ["-r", "-w", "-x", "-e", "-f", "-d", "-c", "-b", "-p", "-u", "-g", "-k", "-s", "-t", "-z", "-n",
    "-h", "-O", "-G", "-L", "-S"]

/-- Questions about two words. -/
def binaries : List String :=
  ["=", "!=", "<", ">", "-eq", "-ne", "-ge", "-gt", "-le", "-lt", "-nt", "-ot", "-ef"]

/-- How a word counts where an expression may begin. -/
inductive Word where
  | operand
  | unary (text : String)
  | binary (text : String)
  | not
  | and
  | or
  | open_
  | close
  | none
  deriving Repr, DecidableEq

/-- The operator that a text names. -/
def operator? (text : String) : Option Word :=
  if unaries.contains text then some (.unary text)
  else if binaries.contains text then some (.binary text)
  else
    match text with
    | "!" => some .not
    | "-a" => some .and
    | "-o" => some .or
    | "(" => some .open_
    | ")" => some .close
    | _ => Option.none

/-- What the first of some words counts as. -/
def lex (words : List String) : Word :=
  match words with
  | [] => .none
  | text :: rest =>
    match operator? text with
    | some (.unary op) =>
      match rest with
      | [] => .operand
      | [_] => .unary op
      | second :: _ =>
        match operator? second with
        | some (.binary _) => .operand
        | _ => .unary op
    | some .open_ => if rest.isEmpty then .operand else .open_
    | some op => op
    | Option.none => .operand

/-- A text as a number. -/
def number (text : String) : Except String Int :=
  let cs := text.toList.dropWhile fun c => c == ' ' || c == '\t'
  let (negative, ds) := match cs with
    | '-' :: ds => (true, ds)
    | '+' :: ds => (false, ds)
    | ds => (false, ds)
  match readDigits 10 ds.length 0 ds with
  | (n, rest) =>
    if ds = [] ∨ rest.length = ds.length ∨ (rest.any fun c => c ≠ ' ' ∧ c ≠ '\t') then
      .error ("Illegal number: " ++ text)
    else .ok (if negative then -Int.ofNat n else Int.ofNat n)

/-- The answer to a question about a file. -/
def hasFile (tree : Tree) (op : String) (p : Path) : Bool :=
  match op with
  | "-d" => tree.isDirectory p
  | "-f" => tree.isFile p
  | "-x" => tree.isExecutable p || tree.isDirectory p
  | "-s" => tree.isDirectory p || ((tree.readBytes p).toOption.getD []) ≠ []
  | "-L" | "-h" =>
    match tree.resolve false p with
    | .ok place =>
      match tree.at? place with
      | some (.link _) => true
      | _ => false
    | .error _ => false
  | "-e" | "-r" | "-w" | "-O" | "-G" => tree.hasPath p
  | "-c" => decide ((tree.find p).toOption = some .device)
  | _ => false

/-- The answer to a question about one word. -/
def unary (tree : Tree) (op text : String) : Bool :=
  match op with
  | "-z" => text == ""
  | "-n" => text != ""
  | op => hasFile tree op ⟨text⟩

/-- The answer to a question about two words. -/
def binary (tree : Tree) (op a b : String) : Except String Bool := do
  match op with
  | "=" => return a == b
  | "!=" => return a != b
  | "<" => return decide (a < b)
  | ">" => return decide (b < a)
  | "-eq" | "-ne" | "-ge" | "-gt" | "-le" | "-lt" =>
    let a ← number a
    let b ← number b
    return match op with
      | "-eq" => decide (a = b)
      | "-ne" => decide (a ≠ b)
      | "-ge" => decide (b ≤ a)
      | "-gt" => decide (b < a)
      | "-le" => decide (a ≤ b)
      | _ => decide (a < b)
  | "-ef" =>
    return match tree.canonical ⟨a⟩, tree.canonical ⟨b⟩ with
      | .ok p, .ok q => decide (p = q)
      | _, _ => false
  | _ => return false

mutual

/-- A question, a text, or a condition in brackets. The answer comes with the words behind it. -/
def primary (tree : Tree) : Nat → Word → List String → Except String (Bool × List String)
  | 0, _, words => .ok (false, words)
  | fuel + 1, word, words =>
    match word, words with
    | .none, words => .ok (false, words)
    | .open_, _ :: rest =>
      match lex rest with
      | .close => .ok (false, rest.drop 1)
      | word =>
        match disjunction tree fuel word rest with
        | .error fault => .error fault
        | .ok (answer, rest) =>
          match lex rest with
          | .close => .ok (answer, rest.drop 1)
          | _ => .error "closing paren expected"
    | .unary op, _ :: text :: rest => .ok (unary tree op text, rest)
    | .unary op, _ => .error (op ++ ": argument expected")
    | _, a :: rest =>
      match lex rest, rest with
      | .binary op, _ :: b :: rest =>
        match binary tree op a b with
        | .ok answer => .ok (answer, rest)
        | .error fault => .error fault
      | .binary op, _ => .error (op ++ ": argument expected")
      | _, rest => .ok (a != "", rest)
    | _, [] => .ok (false, [])

/-- A condition that may be negated. -/
def negation (tree : Tree) : Nat → Word → List String → Except String (Bool × List String)
  | 0, _, words => .ok (false, words)
  | fuel + 1, .not, _ :: rest =>
    match negation tree fuel (lex rest) rest with
    | .ok (answer, rest) => .ok (!answer, rest)
    | .error fault => .error fault
  | fuel + 1, word, words => primary tree fuel word words

/-- Conditions joined by and. -/
def conjunction (tree : Tree) : Nat → Word → List String → Except String (Bool × List String)
  | 0, _, words => .ok (false, words)
  | fuel + 1, word, words =>
    match negation tree fuel word words with
    | .error fault => .error fault
    | .ok (a, rest) =>
      match lex rest with
      | .and =>
        match conjunction tree fuel (lex (rest.drop 1)) (rest.drop 1) with
        | .ok (b, rest) => .ok (a && b, rest)
        | .error fault => .error fault
      | _ => .ok (a, rest)

/-- Conditions joined by or. -/
def disjunction (tree : Tree) : Nat → Word → List String → Except String (Bool × List String)
  | 0, _, words => .ok (false, words)
  | fuel + 1, word, words =>
    match conjunction tree fuel word words with
    | .error fault => .error fault
    | .ok (a, rest) =>
      match lex rest with
      | .or =>
        match disjunction tree fuel (lex (rest.drop 1)) (rest.drop 1) with
        | .ok (b, rest) => .ok (a || b, rest)
        | .error fault => .error fault
      | _ => .ok (a, rest)

end

/-- The answer to a condition. The fault is the wording behind the command's name. -/
def answer (tree : Tree) (words : List String) : Except String Bool :=
  let whole (word : Word) (words : List String) : Except String Bool :=
    match disjunction tree (4 * words.length + 8) word words with
    | .error fault => .error fault
    | .ok (answer, []) => .ok answer
    | .ok (_, rest) =>
      .error (words.getD (words.length - rest.length - 1) "" ++ ": unexpected operator")
  match words with
  | [] => .ok false
  | [_, op, _] =>
    match operator? op with
    | some (.binary _) => whole .operand words
    | _ => whole (lex words) words
  | words => whole (lex words) words

end InlineRepl.Rehearsal.Shell.Condition
