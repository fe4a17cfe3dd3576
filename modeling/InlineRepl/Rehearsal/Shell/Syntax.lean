/-!
# Scripts

What a script of the shell is: words with quotes and substitutions, redirections, simple commands
and the compound ones.
-/

namespace InlineRepl.Rehearsal.Shell

mutual

/-- A part of a word. -/
inductive Piece where
  /-- A character as it is written. A quoted one stands for itself everywhere. -/
  | char (c : Char) (quoted : Bool)
  /-- A pair of quotes with nothing in it. -/
  | quotes
  /-- The value of a parameter. -/
  | param (name : List Char) (edit : Edit) (quoted : Bool)
  /-- What a script writes. -/
  | output (script : Script) (quoted : Bool)
  /-- The value of an arithmetic expression. -/
  | sum (expression : List Piece) (quoted : Bool)

/-- What is done with the value of a parameter. -/
inductive Edit where
  | none
  | length
  /-- A word takes part when the parameter is unset, or also when it is empty: it is the value, it
  is assigned, it replaces every other value, or it is the fault that ends the script. -/
  | instead (mark : Char) (alsoEmpty : Bool) (word : List Piece)
  /-- The shortest or longest match of a pattern is taken off the front or the back. -/
  | trim (front longest : Bool) (pattern : List Piece)
  /-- There is no such edit. -/
  | bad

/-- Where a stream goes to or comes from. -/
inductive Redirection where
  | target (stream : Nat) (mark : String) (word : List Piece)
  /-- The text that stands behind the command, by its number. -/
  | here (stream number : Nat)

/-- A command. Commands that report faults know the line they begin on. -/
inductive Script where
  | nothing
  | simple (line : Nat) (assignments : List (List Char × List Piece)) (words : List (List Piece))
      (redirections : List Redirection)
  | redirected (line : Nat) (script : Script) (redirections : List Redirection)
  | subshell (script : Script)
  | pipe (stages : List Script)
  /-- A command that is not waited for. -/
  | aside (script : Script)
  | negation (script : Script)
  | both (first second : Script)
  | either (first second : Script)
  | sequence (first second : Script)
  | branch (condition yes no : Script)
  /-- A loop that goes on while its condition has the given outcome. -/
  | loop (while_ : Bool) (condition body : Script)
  /-- A loop over words, or over the arguments. -/
  | each (name : List Char) (words : Option (List (List Piece))) (body : Script)
  | select (word : List Piece) (cases : List (List (List Piece) × Script))
  | function (name : List Char) (body : Script)

end

/-- A word as it is written. -/
abbrev Word := List Piece

/-- A word that is spelled without quotes and substitutions. -/
def bare? : Word → Option (List Char)
  | [] => some []
  | .char c false :: rest => (bare? rest).map (c :: ·)
  | _ => none

/-- A character that a name may begin with. -/
def beginsName (c : Char) : Bool :=
  c.isAlpha || c == '_'

/-- A character of a name. -/
def isNameChar (c : Char) : Bool :=
  c.isAlphanum || c == '_'

/-- The text is a name. -/
def isName (cs : List Char) : Bool :=
  (cs.head?.map beginsName).getD false && cs.all isNameChar

/-- The name and the value of an assignment, as it is written. -/
def assignment? (word : Word) : Option (List Char × Word) :=
  let plain? (p : Piece) : Option Char :=
    match p with
    | .char c false => some c
    | _ => none
  let name := ((word.map plain?).takeWhile fun c => (c.map isNameChar).getD false).filterMap id
  match word.drop name.length with
  | .char '=' false :: value => if isName name then some (name, value) else none
  | _ => none

/-- The special commands of the shell. No function may be named for one. -/
def specialCommands : List String :=
  [".", ":", "break", "continue", "eval", "exec", "exit", "export", "readonly", "return", "set",
    "shift", "trap", "unset"]

end InlineRepl.Rehearsal.Shell
