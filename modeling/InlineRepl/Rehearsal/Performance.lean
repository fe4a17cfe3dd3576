import InlineRepl.Process.Supervisor
import InlineRepl.Tree.Basic

/-!
# Performances

The life of a process as its supervisor sees it: what it writes and closes, and when, and how it
ends. A performance stands in for a process where none is to be started, so that everything around
processes can be rehearsed.
-/

namespace InlineRepl.Rehearsal

/-- What a process does that its supervisor can see. -/
inductive Act where
  | write (output : Output) (bytes : List UInt8)
  | close (output : Output)
  deriving Repr, DecidableEq

/-- An act of a process or of one of its children, which live on when the process is made to end. -/
structure Deed where
  /-- Milliseconds after the start of the process. -/
  time : Nat
  /-- When the child was started that does it, if a child does it. -/
  since : Option Nat := none
  act : Act
  deriving Repr, DecidableEq

/-- The deed is done even when the process is made to end at the given time. -/
def Deed.isDone (deed : Deed) (stop : Nat) : Bool :=
  decide (deed.since.getD deed.time < stop)

/-- The life of a process. -/
structure Performance where
  deeds : List Deed := []
  /-- When the process itself ends. -/
  leavesAt : Nat := 0
  /-- When its end is noticed: children that live on keep its outputs open. -/
  endsAt : Nat := 0
  /-- The exit code, unless a signal ends it. -/
  code : Option Int := some 0
  /-- The directory trees that it leaves behind, each with the time from which on it is there. -/
  trees : List (Nat × Tree) := []
  deriving Repr, DecidableEq

namespace Performance

/-- The directory tree that the process has left behind at the given time. -/
def treeAt? (p : Performance) (time : Nat) : Option Tree :=
  ((p.trees.filter fun entry => decide (entry.1 ≤ time)).getLast?).map Prod.snd

/-- The most bytes that are read at once. -/
def readLimit : Nat := 4096

/-- The acts in order of time; acts of one time stay in order. -/
def inOrder (deeds : List Deed) : List (Nat × Act) :=
  (deeds.mergeSort fun a b => decide (a.time ≤ b.time)).map fun deed => (deed.time, deed.act)

/-- Joins writes to one output at one time: they are read together. -/
def joined : List (Nat × Act) → List (Nat × Act)
  | [] => []
  | (time, act) :: rest =>
    match act, joined rest with
    | .write output bytes, (later, .write output' more) :: rest =>
      if time = later ∧ output = output' then (time, .write output (bytes ++ more)) :: rest
      else (time, act) :: (later, .write output' more) :: rest
    | act, rest => (time, act) :: rest

/-- The bytes as they are read. The fuel bounds the number of reads. -/
def reads (output : Output) : Nat → List UInt8 → List Stir
  | 0, _ => []
  | _, [] => []
  | fuel + 1, bytes =>
    .bytes output (bytes.take readLimit) :: reads output fuel (bytes.drop readLimit)

/-- What an act is to the supervisor. -/
def stirsOf : Act → List Stir
  | .write output bytes => reads output (bytes.length + 1) bytes
  | .close output => [.close output]

/-- The outputs that the acts leave open are closed at the end. -/
def closing (acts : List (Nat × Act)) : List Stir :=
  ([Output.out, .err].filter fun output =>
    acts.all fun act => decide (act.2 ≠ .close output)).map Stir.close

/-- The process is still there at the given time. -/
def isAlive (p : Performance) (time : Nat) : Bool :=
  decide (time < p.endsAt)

/-- What a supervisor meets when nobody stops the process, and when. -/
def timedStirs (p : Performance) : List (Nat × Stir) :=
  let acts := inOrder p.deeds
  (joined acts).flatMap (fun act => (stirsOf act.2).map fun stir => (act.1, stir)) ++
    (closing acts ++ [Stir.ended p.code]).map fun stir => (p.endsAt, stir)

/-- What a supervisor meets when nobody stops the process. -/
def stirs (p : Performance) : List Stir :=
  p.timedStirs.map Prod.snd

/-- What a supervisor meets when its handle asks for the end, or is lost, at the given time. A
process that has ended before is not asked. -/
def stirsStopped (p : Performance) (time : Nat) : List Stir :=
  if p.isAlive time then
    let acts := inOrder (p.deeds.filter fun deed => deed.isDone time)
    let early := acts.takeWhile fun act => decide (act.1 < time)
    (joined early).flatMap (fun act => stirsOf act.2) ++
      .stop :: ((joined (acts.drop early.length)).flatMap (fun act => stirsOf act.2) ++
        (closing acts ++ [.ended (if time < p.leavesAt then none else p.code)]))
  else p.stirs

/-- What the session is told, and when. -/
def storyFrom (s : Supervisor) : List (Nat × Stir) → List (Nat × Happening)
  | [] => []
  | (time, stir) :: rest =>
    match s.step? stir with
    | none => storyFrom s rest
    | some next =>
      (next.told.drop s.told.length).map (fun happening => (time, happening)) ++
        storyFrom next rest

/-- What the session of the process is told, and when. -/
def story (p : Performance) : List (Nat × Happening) :=
  storyFrom {} p.timedStirs

end Performance

end InlineRepl.Rehearsal
