import InlineRepl.Rehearsal.Shell.Signal

/-!
# Jobs

The commands that a shell does not wait for: how they are numbered and found. A list of jobs has
them in the order in which they were started, so the last one is the current job.
-/

namespace InlineRepl.Rehearsal.Shell

/-- A command that is not waited for. -/
structure Job where
  /-- Its number among the jobs of its shell. -/
  number : Nat
  pid : Nat
  endsAt : Nat
  status : Nat
  /-- The signal that ended it. -/
  signal : Option Nat := none
  /-- The open files that it holds, by number. -/
  holds : List Nat := []
  /-- How many programs write into each other in it. -/
  stages : Nat := 1
  /-- The shell has waited for it. -/
  waited : Bool := false
  deriving Repr, DecidableEq

namespace Job

/-- It has ended, and its shell knows. -/
def isOver (now : Nat) (job : Job) : Bool :=
  job.waited || decide (job.endsAt < now)

/-- The number of the next job: the least one that no job has which has not been waited for. -/
def nextNumber (jobs : List Job) : Nat :=
  (((List.range (jobs.length + 1)).map (· + 1)).find? fun number =>
    jobs.all fun job => job.waited || decide (job.number ≠ number)).getD (jobs.length + 1)

/-- Forgets the job that the next process takes the place of. -/
def makeRoom (jobs : List Job) : List Job :=
  jobs.filter fun job => decide (job.number ≠ nextNumber jobs)

/-- The job that a text stands for, or why there is none. -/
def find (jobs : List Job) (text : List Char) : Except String Job :=
  let unknown := "No such job: " ++ String.ofList text
  match text with
  | ['%'] | ['%', '%'] | ['%', '+'] => (jobs.getLast?).elim (.error "No current job") .ok
  | ['%', '-'] => (jobs.dropLast.getLast?).elim (.error "No previous job") .ok
  | ['%', '?'] =>
    match jobs with
    | [] => .error unknown
    | [job] => .ok job
    | _ => .error (String.ofList text ++ ": ambiguous")
  | '%' :: digits =>
    ((String.ofList digits).toNat?.bind fun number =>
      jobs.find? fun job => job.number == number).elim (.error unknown) .ok
  | _ => .error unknown

end Job

end InlineRepl.Rehearsal.Shell
