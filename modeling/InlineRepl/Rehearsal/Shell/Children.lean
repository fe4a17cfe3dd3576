import InlineRepl.Rehearsal.Shell.Arguments

/-!
# Commands about children

How the shell sends signals to the processes that it knows, and waits for its jobs.
-/

namespace InlineRepl.Rehearsal.Shell.Builtins

/-- How kill is called. -/
def killUsage : String :=
  "Usage: kill [-s sigspec | -signum | -sigspec] [pid | job]... or\nkill -l [exitstatus]"

/-- The signal that a text names, unless it is the end of the shell. -/
def signal? (cs : List Char) : Option Nat :=
  if cs.map Char.toUpper = "EXIT".toList then none else Signal.read? (String.ofList cs)

/-- Sends a signal to a process. The answer is whether there is one. -/
def send (number pid : Nat) : Work Bool := do
  let s ← get
  if pid = s.self then
    receive number
    return true
  else if s.ancestors.contains pid then
    let sent := if number = 0 then [] else [{ time := s.now, pid, signal := number }]
    set { s with sent := s.sent ++ sent }
    return true
  else
    match (s.jobs ++ s.kin).find? fun job => job.pid == pid with
    | some job =>
      if job.isOver s.now then return false
      if s.now < job.endsAt ∧ !Signal.isHarmless number ∧ !Signal.isPause number then
        endJob job number
      return true
    | none => return false

/-- Sends signals. -/
def kill (args : List (List Char)) : Work Unit := do
  let sendAll (number : Nat) (pids : List (List Char)) : Work Unit := do
    if pids.isEmpty then refuse killUsage
    else
      setStatus 0
      for cs in pids do
        match Job.find (← get).jobs cs, number? (if cs.head? = some '-' then cs.drop 1 else cs) with
        | .error fault, none =>
          if cs.head? = some '%' then refuse fault
          else
            let digits := if cs.head? = some '-' then cs.drop 1 else cs
            refuse ("Illegal number: " ++ String.ofList digits)
          return
        | job, pid? =>
          -- Neither a job nor a process is a group of its own, as jobs cannot be watched here.
          let isGroup := cs.head? = some '-' ∨ job.isOk
          if isGroup ∨ !(← send number (pid?.getD 0)) then
            complain "No such process\n"
            setStatus 1
  match args with
  | [] => refuse killUsage
  | ['-', 'l'] :: rest =>
    match rest with
    | [] =>
      let rows := (List.range Signal.last).map fun i => allNames (i + 1) ++ "\n"
      sayText ("0\n" ++ String.join rows)
    | cs :: _ =>
      withNumber cs fun n => do
        let n := if 128 < n then n - 128 else n
        if n = 0 ∨ Signal.last < n then
          refuse ("invalid signal number or exit status: " ++ String.ofList cs)
        else sayText (allNames n ++ "\n")
  | ['-', '-'] :: pids => sendAll 15 pids
  | ['-', 's'] :: rest =>
    match rest with
    | [] => refuse "No arg for -s option"
    | name :: pids => named name (sendAll · pids)
  | ('-' :: 's' :: name) :: pids =>
    match signal? ('s' :: name) with
    | some number => sendAll number pids
    | none => named name (sendAll · pids)
  | ('-' :: c :: name) :: pids =>
    match signal? (c :: name) with
    | some number => sendAll number pids
    | none => refuse ("Illegal option -" ++ String.ofList [c])
  | pids => sendAll 15 pids
where
  /-- Goes on with the signal that is named. -/
  named (name : List Char) (go : Nat → Work Unit) : Work Unit :=
    match signal? name with
    | some number => go number
    | none => refuse ("invalid signal number or name: " ++ String.ofList name)
  /-- The name of a signal in the list of all. -/
  allNames (number : Nat) : String :=
    if number = 32 ∨ number = 33 then toString number
    else if number < 32 then Signal.nameOf number
    else if number = 34 then "RTMIN"
    else if number < 50 then "RTMIN+" ++ toString (number - 34)
    else if number < 64 then "RTMAX-" ++ toString (64 - number)
    else "RTMAX"

/-- Waits for children. A signal that is trapped ends the waiting. -/
def wait (args : List (List Char)) : Work Unit :=
  withFlags "" args fun _ args => do
    setStatus 0
    if args.isEmpty then
      let _ ← outlast (← get).jobs
    else
      for cs in args do
        let s ← get
        match Job.find s.jobs cs, number? cs with
        | .ok job, _ => waitFor job
        | .error _, some pid =>
          match s.jobs.reverse.find? fun job => job.pid == pid with
          | some job => waitFor job
          | none => setStatus 127
        | .error fault, none =>
          refuse (if cs.head? = some '%' then fault else "Illegal number: " ++ String.ofList cs)
          return
where
  /-- Waits for a job. -/
  waitFor (job : Job) : Work Unit := do
    if ← outlast [job] then
      setStatus job.status
      announce job.signal
  /-- Waits for the ends of jobs. The answer is whether they have been seen. -/
  outlast (jobs : List Job) : Work Bool := do
    let s ← get
    let last := jobs.foldl (fun time job => max time job.endsAt) s.now
    let ends (sent : Sent) : Bool :=
      sent.pid == s.self && decide (sent.time < last) &&
        (s.traps.lookup sent.signal).any fun script => !script.isEmpty
    match s.sent.find? ends with
    | some sent =>
      set { s with now := max s.now sent.time, status := 128 + sent.signal }
      settleTree
      return false
    | none =>
      let seen (job : Job) : Job := { job with waited := job.waited || jobs.contains job }
      set { s with now := last, jobs := s.jobs.map seen }
      settleTree
      if !jobs.isEmpty then receive childSignal
      return true

end InlineRepl.Rehearsal.Shell.Builtins
