import InlineRepl.Rehearsal.Shell.State

/-!
# Arguments of the shell's own commands

What the commands that the shell carries out itself have in common: how they read numbers and
letters of options, how they answer, and how they refuse. A complaint of one of the special
commands ends the shell.
-/

namespace InlineRepl.Rehearsal.Shell.Builtins

/-- A command at work on its arguments. It sets the status. -/
abbrev Builtin := List (List Char) → Work Unit

/-- The other commands that the shell has. -/
def regulars : List String :=
  ["cd", "command", "echo", "false", "kill", "local", "printf", "pwd", "read", "test", "[", "true",
    "type", "wait"]

/-- Complains; the status says so, and a special command ends the shell. -/
def refuse (message : String) : Work Unit := do
  if specialCommands.contains (String.ofList (← get).command) then raise message
  else
    complain message
    setStatus 2

/-- Writes to the output. -/
def say (bytes : List UInt8) : Work Unit := do
  if ← write 1 bytes then setStatus 0
  else
    complain (String.ofList (← get).command ++ ": I/O error")
    setStatus 1

/-- Writes a text to the output. -/
def sayText (text : String) : Work Unit :=
  say (Text.bytesOf text)

/-- A number without a sign. -/
def number? (cs : List Char) : Option Nat :=
  if cs ≠ [] ∧ cs.all Char.isDigit then
    let n := (readDigits 10 cs.length 0 cs).1
    if n ≤ 2147483647 then some n else none
  else none

/-- Goes on with a number, or complains about it. -/
def withNumber (cs : List Char) (go : Nat → Work Unit) : Work Unit :=
  match number? cs with
  | some n => go n
  | none => refuse ("Illegal number: " ++ String.ofList cs)

/-- Letters of options at the front of arguments. -/
def takeFlags (allowed : String) : List (List Char) → Except Char (List Char × List (List Char))
  | [] => .ok ([], [])
  | ['-', '-'] :: args => .ok ([], args)
  | ('-' :: c :: cs) :: args =>
    match (c :: cs).find? fun c => !allowed.toList.contains c with
    | some c => .error c
    | none =>
      match takeFlags allowed args with
      | .ok (flags, args) => .ok (c :: cs ++ flags, args)
      | .error c => .error c
  | args => .ok ([], args)

/-- Goes on with the letters of options and the other arguments. -/
def withFlags (allowed : String) (args : List (List Char)) (go : List Char → Builtin) : Work Unit :=
  match takeFlags allowed args with
  | .ok (flags, args) => go flags args
  | .error c => refuse ("Illegal option -" ++ String.ofList [c])

end InlineRepl.Rehearsal.Shell.Builtins
