import InlineRepl.Session.Event
import InlineRepl.Text.Utf8

/-!
# The supervisor of a process

The supervisor reads both outputs of a process, each with a decoder of its own, and waits for its
end when both have ended. It asks the process to end once, when the handle asks it to or is lost.

`Supervisor.step?` takes one stir. It is partial: an output that has ended stirs no more, and the
end of the process is noticed only when both outputs have ended, so nothing overtakes the output.
-/

namespace InlineRepl

/-- One of the two outputs of a process. -/
inductive Output where
  | out
  | err
  deriving Repr, DecidableEq

/-- What text of an output is to its session. -/
def Output.happening : Output → String → Happening
  | out, text => .stdout text
  | err, text => .stderr text

/-- What can stir a supervisor. -/
inductive Stir where
  /-- Bytes of an output have been read. -/
  | bytes (output : Output) (read : List UInt8)
  /-- An output has ended, or reading it has failed. -/
  | close (output : Output)
  /-- The handle asks the process to end, or is lost. -/
  | stop
  /-- The process has ended; it has a code unless a signal ended it. -/
  | ended (code : Option Int)
  deriving Repr, DecidableEq

/-- One output as the supervisor sees it. -/
structure OutputState where
  isOpen : Bool := true
  text : Text.Chunks := {}
  deriving Repr, DecidableEq

/-- A supervisor and what it has told the session so far. -/
structure Supervisor where
  out : OutputState := {}
  err : OutputState := {}
  /-- The handle may still ask the process to end. -/
  heeds : Bool := true
  /-- How often the process has been asked to end. -/
  asked : Nat := 0
  /-- The process has ended. -/
  finished : Bool := false
  told : List Happening := []
  deriving Repr, DecidableEq

namespace Supervisor

/-- The state of an output. -/
def output (s : Supervisor) : Output → OutputState
  | .out => s.out
  | .err => s.err

/-- Replaces the state of an output. -/
def setOutput (s : Supervisor) (state : OutputState) : Output → Supervisor
  | .out => { s with out := state }
  | .err => { s with err := state }

/-- Tells the session the text of an output, if there is any. -/
def tell (s : Supervisor) (output : Output) (text : Option String) : Supervisor :=
  { s with told := s.told ++ (text.map output.happening).toList }

/-- Takes one stir, if it can happen. -/
def step? (s : Supervisor) : Stir → Option Supervisor
  | .bytes output read =>
    if s.finished = false ∧ (s.output output).isOpen ∧ read ≠ [] then
      match (s.output output).text.push read with
      | (text, chunks) =>
        some ((s.setOutput { isOpen := true, text := chunks } output).tell output text)
    else none
  | .close output =>
    if s.finished = false ∧ (s.output output).isOpen then
      some ((s.setOutput { isOpen := false } output).tell output (s.output output).text.finish)
    else none
  | .stop =>
    if s.finished = false ∧ s.heeds then some { s with heeds := false, asked := s.asked + 1 }
    else none
  | .ended code =>
    if s.finished = false ∧ s.out.isOpen = false ∧ s.err.isOpen = false then
      some { s with finished := true, told := s.told ++ [.exit code] }
    else none

/-- Takes stirs one after the other, if they can happen. -/
def run? (s : Supervisor) : List Stir → Option Supervisor
  | [] => some s
  | stir :: stirs =>
    match s.step? stir with
    | some s => run? s stirs
    | none => none

/-- The text told of an output, all of it. -/
def textOf (output : Output) (told : List Happening) : String :=
  String.join (told.filterMap fun happening =>
    match output, happening with
    | .out, .stdout text => some text
    | .err, .stderr text => some text
    | _, _ => none)

/-- The handle's request to end is heard. -/
def hears (s : Supervisor) : Bool :=
  !s.finished && s.heeds

end Supervisor

end InlineRepl
