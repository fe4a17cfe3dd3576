import InlineRepl.Wire.Position

/-!
# Process handles

A handle is the only way to stop a process, and losing it stops the process too. The ledger knows,
by serial number, what became of every process that was ever started, and which of them were
signalled: every time that a handle is used or lost counts, also where nobody hears it.
-/

namespace InlineRepl

/-- What became of a process. -/
inductive Fate where
  | running
  /-- It was told to end. -/
  | killed
  /-- Its handle was lost. -/
  | dropped
  /-- It ended on its own and nobody hears a signal any more. -/
  | gone
  deriving Repr, DecidableEq

/-- The owner's end of a process. -/
structure ProcessHandle where
  session : SessionId
  pid : Option Nat
  /-- Its number in the ledger. -/
  serial : Nat
  deriving Repr, DecidableEq

/-- The fates of all processes, in order of their start, and the signals that were given. -/
structure Ledger where
  fates : List (SessionId × Fate) := []
  /-- The serial numbers of the handles that were used or lost, in order. -/
  signals : List Nat := []
  deriving Repr, DecidableEq

namespace Ledger

/-- Enters a process that has just been started. -/
def start (ledger : Ledger) (session : SessionId) (pid : Option Nat) : ProcessHandle × Ledger :=
  ({ session, pid, serial := ledger.fates.length },
    { ledger with fates := ledger.fates ++ [(session, .running)] })

/-- The fate of a process. -/
def fate? (ledger : Ledger) (serial : Nat) : Option Fate :=
  (ledger.fates[serial]?).map Prod.snd

/-- Signals a process, and settles its fate if it is still running. -/
def settle (ledger : Ledger) (serial : Nat) (fate : Fate) : Ledger :=
  { fates := ledger.fates.modify serial fun entry =>
      match entry with
      | (session, .running) => (session, fate)
      | entry => entry
    signals := ledger.signals ++ [serial] }

/-- Tells a process to end. The answer is whether it was there to hear it. -/
def kill (ledger : Ledger) (handle : ProcessHandle) : Bool × Ledger :=
  (ledger.fate? handle.serial == some .running, ledger.settle handle.serial .killed)

/-- Loses a handle. -/
def drop (ledger : Ledger) (handle : ProcessHandle) : Ledger :=
  ledger.settle handle.serial .dropped

/-- The processes of a session end on their own. -/
def vanish (ledger : Ledger) (session : SessionId) : Ledger :=
  { ledger with
    fates := ledger.fates.map fun entry =>
      if entry.1 = session then (session, .gone) else entry }

/-- The fates that anyone can still see. -/
def visible (ledger : Ledger) : List (SessionId × Fate) :=
  ledger.fates.filter fun entry => decide (entry.2 ≠ .gone)

end Ledger

end InlineRepl
