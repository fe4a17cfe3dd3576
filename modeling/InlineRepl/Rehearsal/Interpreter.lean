import InlineRepl.Command.Environment
import InlineRepl.Rehearsal.Child

/-!
# A rehearsed interpreter

An interpreter that keeps to a part: it waits, prints, and then leaves, stays silent, or turns to
the control port. A rehearsal has no port to turn to, so there the interpreter leaves too. Its part
is written down as a script, which is what is found in the directory tree.
-/

namespace InlineRepl.Rehearsal

/-- What an interpreter does once it has printed. -/
inductive Exit where
  | leave (code : Nat)
  /-- It turns to the control port, in vain. -/
  | dial
  /-- It does nothing more until it is stopped. -/
  | stay
  deriving Repr, DecidableEq

/-- The part of an interpreter. -/
structure Part where
  /-- Milliseconds before it prints. -/
  delay : Nat := 0
  stdout : String := ""
  stderr : String := ""
  finish : Exit
  deriving Repr, DecidableEq

namespace Part

/-- A text as a word of a script. -/
def quoted (text : String) : List Char :=
  '\'' :: (text.toList.flatMap fun c => if c = '\'' then "'\\''".toList else [c]) ++ ['\'']

/-- A time as a number of seconds. -/
def seconds (milliseconds : Nat) : String :=
  let part := toString (milliseconds % 1000)
  toString (milliseconds / 1000) ++ "." ++
    String.ofList (List.replicate (3 - part.length) '0') ++ part

/-- A part as a script. -/
def script (part : Part) : String :=
  let last := match part.finish with
    | .leave code => "exit " ++ toString code
    | .dial => "exit 1"
    | .stay => "exec /bin/sleep 1000000000"
  Text.joinLines
    ["#!/bin/sh", "/bin/sleep " ++ seconds part.delay,
      "printf %s " ++ String.ofList (quoted part.stdout),
      "printf %s " ++ String.ofList (quoted part.stderr) ++ " 1>&2", last, ""]

end Part

/-- An environment in which processes are rehearsed: programs are looked up in its directory tree,
and are given the search path and the home directory among the variables. -/
def stage (env : Environment) (values : List (String × String)) : Environment :=
  let named := ["PATH", "HOME"].filterMap fun name =>
    (values.lookup name).map fun value => (name, value)
  let launch := Child.launch env.tree named
  { env with
    launch := fun _ spec => (launch spec).map fun _ => none
    story := fun spec => ((launch spec).toOption.map Performance.story).getD []
    leaves := fun spec time => (launch spec).toOption.bind fun p => p.treeAt? time }

end InlineRepl.Rehearsal
