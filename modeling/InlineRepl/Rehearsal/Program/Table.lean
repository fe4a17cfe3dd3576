import InlineRepl.Rehearsal.Program.Files
import InlineRepl.Rehearsal.Program.Search
import InlineRepl.Rehearsal.Program.Texts
import InlineRepl.Rehearsal.Program.Writing

/-!
# The table of programs

Which program a name stands for: one that works for itself, or one that becomes another program.
-/

namespace InlineRepl.Rehearsal.Program

open Shell

/-- A program at work, if it is one of those that only work for themselves. -/
def run? (program me : String) (args : List String) : Option (Work Nat) :=
  match program with
  | "[" | "test" => some (test me args)
  | "cat" => some (cat me args)
  | "echo" => some (echo me true false args)
  | "false" => some (pure 1)
  | "grep" => some (grep me args)
  | "head" => some (part me args front)
  | "kill" => some (kill me args)
  | "ls" => some (ls me args)
  | "mkdir" => some (mkdir me args)
  | "printf" => some (printf me args)
  | "pwd" => some (pwd me args)
  | "rm" => some (rm me args)
  | "sed" => some (sed me args)
  | "sleep" => some (sleep me args)
  | "tail" => some (part me args back)
  | "touch" => some (touch me args)
  | "tr" => some (tr me args)
  | "true" => some (pure 0)
  | "wc" => some (wc me args)
  | _ => none

/-- A program at work that may become another one, if it is one of those. -/
def next? (program me : String) (args : List String) : Option (Work Next) :=
  match program with
  | "env" => some (env me args)
  | _ => none

end InlineRepl.Rehearsal.Program
