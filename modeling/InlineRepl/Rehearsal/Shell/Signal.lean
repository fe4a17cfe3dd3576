/-!
# Signals

The names and numbers of signals, and how the end of a process by one is announced.
-/

namespace InlineRepl.Rehearsal.Shell.Signal

/-- The names of the signals from number 1 on. -/
def names : List String :=
  ["HUP", "INT", "QUIT", "ILL", "TRAP", "ABRT", "BUS", "FPE", "KILL", "USR1", "SEGV", "USR2",
    "PIPE", "ALRM", "TERM", "16", "CHLD", "CONT", "STOP", "TSTP", "TTIN", "TTOU", "URG", "XCPU",
    "XFSZ", "VTALRM", "PROF", "WINCH", "IO", "PWR", "SYS"]

/-- The most that a signal's number can be. -/
def last : Nat := 64

/-- The number of a signal that is given by its number or by its name; the end of the shell counts
as number 0. -/
def read? (text : String) : Option Nat :=
  if text ≠ "" ∧ text.toList.all Char.isDigit then
    match text.toNat? with
    | some n => if n ≤ last then some n else none
    | none => none
  else if text.toUpper = "EXIT" then some 0
  else (names.findIdx? fun name => name == text.toUpper).map (· + 1)

/-- The name of a signal. -/
def nameOf (number : Nat) : String :=
  if number = 0 then "EXIT" else (names[number - 1]?).getD (toString number)

/-- Signals that a process does not end by unless it asks to. -/
def isHarmless (number : Nat) : Bool :=
  [0, 17, 18, 23, 28].contains number

/-- Signals that stop a process. -/
def isPause (number : Nat) : Bool :=
  [19, 20, 21, 22].contains number

/-- Signals that no process can ignore. -/
def isCertain (number : Nat) : Bool :=
  number == 9 || number == 19

/-- How the end of a process by a signal is announced, if it is. -/
def announcement? (number : Nat) : Option String :=
  match nameOf number with
  | "HUP" => some "Hangup"
  | "QUIT" => some "Quit"
  | "ILL" => some "Illegal instruction"
  | "TRAP" => some "Trace/breakpoint trap"
  | "ABRT" => some "Aborted"
  | "BUS" => some "Bus error"
  | "FPE" => some "Floating point exception"
  | "KILL" => some "Killed"
  | "USR1" => some "User defined signal 1"
  | "SEGV" => some "Segmentation fault"
  | "USR2" => some "User defined signal 2"
  | "ALRM" => some "Alarm clock"
  | "TERM" => some "Terminated"
  | "16" => some "Stack fault"
  | "XCPU" => some "CPU time limit exceeded"
  | "XFSZ" => some "File size limit exceeded"
  | "VTALRM" => some "Virtual timer expired"
  | "PROF" => some "Profiling timer expired"
  | "IO" => some "I/O possible"
  | "PWR" => some "Power failure"
  | "SYS" => some "Bad system call"
  | _ => none

end InlineRepl.Rehearsal.Shell.Signal
