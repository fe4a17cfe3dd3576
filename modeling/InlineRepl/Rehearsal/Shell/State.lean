import InlineRepl.Rehearsal.Performance
import InlineRepl.Rehearsal.Shell.Job
import InlineRepl.Rehearsal.Shell.Printing
import InlineRepl.Rehearsal.Shell.Syntax
import InlineRepl.Tree.Change

/-!
# The state of a shell

What a shell knows while it runs: the directory tree, its variables and functions, where its streams
lead, the time, and what has been done so far. `Work` is the type of what a shell does.
-/

namespace InlineRepl.Rehearsal.Shell

/-- What an open file is connected to. -/
inductive Channel where
  | output (output : Output)
  | file (place : Place)
  | directory
  /-- What is written to it can be read from it. -/
  | pipe
  | nowhere
  /-- It holds zeros without end. -/
  | zeros
  /-- Nothing can be written to it any more. -/
  | full
  deriving Repr, DecidableEq

/-- An open file. The streams that lead to it share its position. -/
structure OpenFile where
  channel : Channel
  reads : Bool := false
  writes : Bool := false
  /-- Everything is written behind what is there. -/
  appends : Bool := false
  position : Nat := 0
  /-- What a pipe holds, in order, each part with the time at which it was written. -/
  held : List (Nat × List UInt8) := []
  /-- What has been written to a pipe since it was last read from, the last part first. -/
  fresh : List (Nat × List UInt8) := []
  /-- When nobody writes to a pipe any more. -/
  closedAt : Nat := 0
  deriving Repr, DecidableEq

/-- Why a shell does not go on with the next command. -/
inductive Flow where
  | exit (code : Nat)
  | signal (number : Nat)
  | ret
  /-- So many loops are left, the last of them to be begun again or not. -/
  | leave (again : Bool) (levels : Nat)
  /-- It never comes to its end. -/
  | stuck
  deriving Repr, DecidableEq

/-- A signal on its way to a process. -/
structure Sent where
  time : Nat
  pid : Nat
  signal : Nat
  deriving Repr, DecidableEq

/-- What becomes of what stands at a place. -/
structure Change where
  place : Place
  before : Option Entry
  after : Option Entry
  deriving Repr, DecidableEq

/-- What a child that is not waited for will have changed in the directory tree at a time. -/
structure Aftermath where
  pid : Nat
  time : Nat
  changes : List Change
  deriving Repr, DecidableEq

/-- A child that was started by the first shell. -/
structure Child where
  pid : Nat
  start : Nat
  deriving Repr, DecidableEq

/-- What a shell knows. -/
structure State where
  tree : Tree
  /-- Its name in complaints. -/
  name : List Char := "sh".toList
  args : List (List Char) := []
  values : List (List Char × List Char) := []
  exported : List (List Char) := []
  locked : List (List Char) := []
  /-- The functions with the lines they begin on. -/
  functions : List (List Char × Nat × Script) := []
  /-- The files that the later stages of a pipe open, and whether they keep what the files hold.
  That has happened by the time at which a program has been loaded. -/
  upcoming : List (String × Bool) := []
  /-- The texts behind commands, by number. -/
  texts : List (Nat × Word) := []
  textCount : Nat := 0
  options : List Char := []
  status : Nat := 0
  /-- The status of the last command whose output has been taken. -/
  outputStatus : Nat := 0
  line : Nat := 1
  /-- How far the lines of the running function are from the top. -/
  lineShift : Nat := 0
  /-- The command that complains. -/
  command : List Char := []
  /-- The number of the shell that was started by its name. -/
  pid : Nat := 4242
  /-- The number of the process itself. -/
  self : Nat := 4242
  nextPid : Nat := 4243
  /-- The processes that it comes from, the nearest one first. -/
  ancestors : List Nat := [4241]
  child : Option Child := none
  lastAside : Option Nat := none
  /-- Milliseconds after the start. -/
  now : Nat := 1
  /-- The deeds so far, the last one first, with the child that has done each. -/
  deeds : List (Option Child × Deed) := []
  /-- The open files by number, the last one first. -/
  files : List (Nat × OpenFile) :=
    [(2, { channel := .output .err, writes := true }),
      (1, { channel := .output .out, writes := true }), (0, { channel := .nowhere, reads := true })]
  fileCount : Nat := 3
  /-- The open files that streams lead to. -/
  streams : List (Nat × Nat) := [(0, 0), (1, 1), (2, 2)]
  /-- The scripts that run in place of a signal, by its number; 0 is the end. -/
  traps : List (Nat × List Char) := []
  /-- Signals that have arrived and are trapped. -/
  pending : List Nat := []
  flow : Option Flow := none
  loops : Nat := 0
  /-- How many functions are running. -/
  calls : Nat := 0
  /-- The values to be restored at the end of the function. -/
  saved : List (List Char × Option (List Char)) := []
  jobs : List Job := []
  /-- The jobs of the processes that it comes from. -/
  kin : List Job := []
  /-- Children that nobody waits for any more. -/
  orphans : List Job := []
  later : List Aftermath := []
  /-- The directory trees that have been left behind so far, the last one first, with the time from
  which on each was there. -/
  trees : List (Nat × Tree) := []
  /-- The signals that children have sent, the first one first. -/
  sent : List Sent := []
  /-- How many commands may still run. -/
  budget : Nat := 100000

/-- The time by which every script that ends has ended. -/
def horizon : Nat := 1000000000

/-- What a shell does. -/
abbrev Work := StateM State

/-! ## Variables -/

namespace State

/-- The arguments as one text. -/
def joinedArgs (s : State) (separator : List Char) : List Char :=
  List.intercalate separator s.args

/-- The value of a parameter that is set. -/
def value? (s : State) (name : List Char) : Option (List Char) :=
  match name with
  | ['?'] => some (toString s.status).toList
  | ['$'] => some (toString s.pid).toList
  | ['!'] => s.lastAside.map fun pid => (toString pid).toList
  | ['#'] => some (toString s.args.length).toList
  | ['-'] => some s.options
  | ['0'] => some s.name
  | ['@'] | ['*'] => if s.args.isEmpty then none else some (s.joinedArgs [' '])
  | c :: _ =>
    if c.isDigit then
      match (readDigits 10 name.length 0 name).1 with
      | 0 => some s.name
      | n + 1 => s.args[n]?
    else s.values.lookup name
  | [] => none

/-- The value of a parameter, which is empty when it is not set. -/
def value (s : State) (name : String) : List Char :=
  (s.value? name.toList).getD []

/-- Sets a variable. -/
def assign (s : State) (name value : List Char) : State :=
  { s with values := (name, value) :: s.values.filter fun entry => decide (entry.1 ≠ name) }

/-- Takes a variable away. -/
def unassign (s : State) (name : List Char) : State :=
  { s with
    values := s.values.filter fun entry => decide (entry.1 ≠ name)
    exported := s.exported.filter fun other => decide (other ≠ name) }

/-- Sets a variable back to what it was. -/
def restore (s : State) (name : List Char) : Option (List Char) → State
  | some value => s.assign name value
  | none => { s with values := s.values.filter fun entry => decide (entry.1 ≠ name) }

/-- An option is on. -/
def has (s : State) (option : Char) : Bool :=
  s.options.contains option

/-- The variables that programs are given. -/
def environment (s : State) : List (List Char × List Char) :=
  s.values.filter fun entry => s.exported.contains entry.1

/-- The characters that words are split at. -/
def separators (s : State) : List Char :=
  (s.values.lookup "IFS".toList).getD " \t\n".toList

/-- The working directory as it has been reached. -/
def directory (s : State) : List Char :=
  s.value "PWD"

end State

/-! ## Open files -/

/-- Changes an open file. -/
def changeFile (change : OpenFile → OpenFile) (number : Nat) :
    List (Nat × OpenFile) → List (Nat × OpenFile)
  | [] => []
  | (other, file) :: rest =>
    if other = number then (other, change file) :: rest
    else (other, file) :: changeFile change number rest

namespace State

/-- The open file that a stream leads to. -/
def file? (s : State) (stream : Nat) : Option (Nat × OpenFile) :=
  (s.streams.lookup stream).bind fun number =>
    (s.files.lookup number).map fun file => (number, file)

/-- Changes an open file. -/
def withFile (s : State) (number : Nat) (change : OpenFile → OpenFile) : State :=
  { s with files := changeFile change number s.files }

/-- Opens a file. -/
def openFile (s : State) (file : OpenFile) : State :=
  { s with files := (s.fileCount, file) :: s.files, fileCount := s.fileCount + 1 }

/-- Closes files. -/
def closeFiles (s : State) (test : Nat → Bool) : State :=
  { s with files := s.files.filter fun entry => !test entry.1 }

/-- The number of the file that was opened last. -/
def lastFile (s : State) : Nat :=
  s.fileCount - 1

/-- Lets a stream lead to an open file, or closes it. -/
def setStream (s : State) (stream : Nat) (number : Option Nat) : State :=
  let others := s.streams.filter fun entry => decide (entry.1 ≠ stream)
  { s with streams := (number.map fun number => (stream, number)).toList ++ others }

end State

/-- Bytes with others written over them from a position on; a gap is filled with zeros. -/
def overwritten (old : List UInt8) (position : Nat) (bytes : List UInt8) : List UInt8 :=
  if position = old.length then old ++ bytes
  else
    old.take position ++ List.replicate (position - old.length) 0 ++ bytes ++
      old.drop (position + bytes.length)

/-- Writes bytes to an open file. -/
def writeTo (number : Nat) (bytes : List UInt8) : Work Unit :=
  modify fun s =>
    match bytes, s.files.lookup number with
    | [], _ | _, none => s
    | _, some file =>
      match file.channel with
      | .output output =>
        let deed : Deed :=
          { time := s.now, since := s.child.map Child.start, act := .write output bytes }
        { s with deeds := (s.child, deed) :: s.deeds }
      | .file place =>
        match s.tree.at? place with
        | some (.file old executable) =>
          let position := if file.appends then old.length else file.position
          let s := s.withFile number fun file =>
            { file with position := position + bytes.length }
          { s with tree := s.tree.put place (.file (overwritten old position bytes) executable) }
        | _ => s
      | .pipe =>
        s.withFile number fun file => { file with fresh := (s.now, bytes) :: file.fresh }
      | .nowhere | .zeros | .full | .directory => s

/-- Why nothing can be written to a stream. -/
def State.writeFault? (s : State) (stream : Nat) : Option String :=
  match s.file? stream with
  | none => some "Bad file descriptor"
  | some (_, file) =>
    if file.writes = false then some "Bad file descriptor"
    else if file.channel = .full then some "No space left on device"
    else none

/-- Writes bytes to a stream. The answer is whether it can be written to. -/
def write (stream : Nat) (bytes : List UInt8) : Work Bool := do
  let s ← get
  match s.writeFault? stream, s.file? stream with
  | none, some (number, _) =>
    writeTo number bytes
    return true
  | _, _ => return bytes.isEmpty

/-- Writes a text to a stream. -/
def writeText (stream : Nat) (text : String) : Work Unit := do
  let _ ← write stream (Text.bytesOf text)

/-- The parts that a pipe holds in order of time, those that have been written since it was last
read from included. -/
def OpenFile.parts (file : OpenFile) : List (Nat × List UInt8) :=
  match file.fresh with
  | [] => file.held
  | fresh => file.held ++ fresh.reverse.mergeSort fun a b => decide (a.1 ≤ b.1)

/-- Takes bytes from an open file: as many as `choose` takes of those that are there, in parts with
the times at which they can be read. -/
def takeFrom (number : Nat) (choose : List (Nat × List UInt8) → List (Nat × List UInt8)) :
    Work (List (Nat × List UInt8)) := do
  let s ← get
  match s.files.lookup number with
  | none => return []
  | some file =>
    match file.channel with
    | .pipe =>
      let parts := file.parts
      let taken := choose parts
      let count := (taken.flatMap Prod.snd).length
      set (s.withFile number fun file => { file with held := dropParts count parts, fresh := [] })
      return taken
    | .file place =>
      match s.tree.at? place with
      | some (.file bytes _) =>
        let taken := choose [(s.now, bytes.drop file.position)]
        let count := (taken.flatMap Prod.snd).length
        set (s.withFile number fun file => { file with position := file.position + count })
        return taken
      | _ => return []
    | .zeros | .full => return choose [(s.now, List.replicate zeroCount 0)]
    | _ => return []
where
  /-- How many zeros are there at once. -/
  zeroCount : Nat := 65536
  /-- Parts without so many bytes at their front. -/
  dropParts : Nat → List (Nat × List UInt8) → List (Nat × List UInt8)
    | _, [] => []
    | count, (time, bytes) :: parts =>
      if bytes.length ≤ count then dropParts (count - bytes.length) parts
      else (time, bytes.drop count) :: parts

/-- Waits until a time. -/
def waitUntil (time : Nat) : Work Unit :=
  modify fun s => { s with now := max s.now time }

/-- Waits until nobody writes to an open file any more. -/
def waitForEnd (number : Nat) : Work Unit := do
  match (← get).files.lookup number with
  | some file => waitUntil file.closedAt
  | none => pure ()

/-- Reads an open file to its end. -/
def readAll (number : Nat) : Work (List UInt8) := do
  let parts ← takeFrom number id
  waitForEnd number
  return parts.flatMap Prod.snd

/-- The parts up to the first line end, which is the last byte of the last part. -/
def upToLineEnd (mark : UInt8) : List (Nat × List UInt8) → List (Nat × List UInt8)
  | [] => []
  | (time, bytes) :: parts =>
    let front := bytes.takeWhile (· != mark)
    if front.length = bytes.length then (time, bytes) :: upToLineEnd mark parts
    else [(time, front ++ [mark])]

/-- Reads a line from an open file, with its line end if it has one. -/
def nextLine (number : Nat) : Work (List UInt8) := do
  let parts ← takeFrom number (upToLineEnd 10)
  let bytes := parts.flatMap Prod.snd
  if bytes.getLast? = some 10 then
    waitUntil ((parts.getLast?.map Prod.fst).getD 0)
  else waitForEnd number
  return bytes

/-! ## Ends and complaints -/

/-- The shell does not go on with the next command. -/
def halted : Work Bool := do
  return (← get).flow.isSome

/-- Does not go on. -/
def halt (flow : Flow) : Work Unit :=
  modify fun s => { s with flow := some flow }

/-- Sets the status. -/
def setStatus (status : Nat) : Work Unit :=
  modify fun s => { s with status }

/-- Writes a complaint. -/
def complain (message : String) : Work Unit := do
  let s ← get
  let command := if s.command = [] then "" else String.ofList s.command ++ ": "
  writeText 2 (String.ofList s.name ++ ": " ++ toString (s.line - s.lineShift) ++ ": " ++ command ++
    message ++ "\n")

/-- Writes a complaint and ends the shell. -/
def raise (message : String) : Work Unit := do
  complain message
  setStatus 2
  halt (.exit 2)

/-- The wording of a fault without its number. -/
def reason (fault : FileFault) : String :=
  ((fault.message.splitOn " (os error").head?).getD ""

/-- The wording of a fault where something is opened or looked for. -/
def reasonFor (missing : String) (fault : FileFault) : String :=
  match fault with
  | .notFound | .notDirectory => missing
  | fault => reason fault

/-- Sends a signal to the shell itself. One that is trapped is met once, however often it comes. -/
def receive (number : Nat) : Work Unit :=
  modify fun s =>
    let trap := if Signal.isCertain number then none else s.traps.lookup number
    match trap with
    | some [] => s
    | some _ =>
      if s.pending.contains number then s else { s with pending := s.pending ++ [number] }
    | none =>
      if Signal.isHarmless number then s
      else { s with flow := some (if Signal.isPause number then .stuck else .signal number) }

/-- Ends a job by a signal, and with it what it would have done. -/
def endJob (job : Job) (number : Nat) : Work Unit :=
  modify fun s =>
    let ended : Job :=
      { job with endsAt := s.now, status := 128 + number, signal := some number }
    let replace (other : Job) : Job := if other.pid = job.pid then ended else other
    { s with
      jobs := s.jobs.map replace
      kin := s.kin.map replace
      later := s.later.filter fun aftermath =>
        decide (aftermath.pid ≠ job.pid ∨ aftermath.time ≤ s.now)
      deeds := s.deeds.filter fun (child, deed) =>
        decide (child.map Child.pid ≠ some job.pid ∨ deed.time ≤ s.now) }

/-- The open files that the streams lead to. -/
def State.held (s : State) : List Nat :=
  s.streams.map Prod.snd

/-- The time by which all children have let go of open files that pass a test. -/
def State.releasedAt (s : State) (test : Nat → Bool) : Nat :=
  ((s.jobs ++ s.orphans).filter fun job => job.holds.any test).foldl
    (fun time job => max time job.endsAt) 0

/-- The open file is an output of the process. -/
def State.isOutput (s : State) (number : Nat) : Bool :=
  match (s.files.lookup number).map OpenFile.channel with
  | some (.output _) => true
  | _ => false

/-- The time by which all children let go of the outputs of the process. -/
def State.jobsEnd (s : State) : Nat :=
  s.releasedAt s.isOutput

/-! ## The directory tree over time -/

/-- What has to be put in place or taken away to make one directory tree of another. -/
def changesBetween (old new : Tree) : List Change :=
  (new.entries.filterMap fun (place, entry) =>
    let before := old.at? place
    if before = some entry then none else some { place, before, after := some entry }) ++
  old.entries.filterMap fun (place, entry) =>
    if (new.at? place).isSome then none else some { place, before := some entry, after := none }

/-- What a child changes step by step, from the trees that it has left behind, the first one first.
-/
def aftermaths (pid : Nat) : Tree → List (Nat × Tree) → List Aftermath
  | _, [] => []
  | before, (time, tree) :: rest =>
    match changesBetween before tree with
    | [] => aftermaths pid before rest
    | changes => { pid, time, changes } :: aftermaths pid tree rest

/-- Carries out a change of the directory tree. What a child has written behind the end of a file is
put behind what stands there by now, and who writes there goes on behind it. -/
def State.applyChange (s : State) (change : Change) : State :=
  let place := change.place
  let current := s.tree.at? place
  match change.after with
  | none =>
    { s with tree := { s.tree with
        entries := s.tree.entries.filter fun e => decide (e.1 ≠ place) } }
  | some (.file bytes executable) =>
    let old := match change.before with
      | some (.file old _) => old
      | _ => []
    match current with
    | some (.file present _) =>
      if current ≠ change.before ∧ old.isPrefixOf bytes then
        let bytes := present ++ bytes.drop old.length
        let move (entry : Nat × OpenFile) : Nat × OpenFile :=
          if entry.2.channel = .file place ∧ entry.2.position = present.length then
            (entry.1, { entry.2 with position := bytes.length })
          else entry
        { s with tree := s.tree.put place (.file bytes executable), files := s.files.map move }
      else { s with tree := s.tree.put place (.file bytes executable) }
    | _ => { s with tree := s.tree.put place (.file bytes executable) }
  | some entry => { s with tree := s.tree.put place entry }

/-- Lets the changes be seen that children have come to. -/
def settleTree : Work Unit :=
  modify fun s =>
    match s.later.filter fun aftermath => decide (aftermath.time ≤ s.now) with
    | [] => s
    | due =>
      let due := due.mergeSort fun a b => decide (a.time ≤ b.time)
      let s := { s with later := s.later.filter fun aftermath => decide (s.now < aftermath.time) }
      (due.flatMap Aftermath.changes).foldl State.applyChange s

/-- Keeps the directory tree that is left behind by now. -/
def keepTree : Work Unit :=
  modify fun s =>
    match s.trees with
    | (time, _) :: older =>
      if s.now ≤ time then { s with trees := (time, s.tree) :: older }
      else { s with trees := (s.now, s.tree) :: s.trees }
    | [] => { s with trees := [(s.now, s.tree)] }

/-! ## Children -/

/-- Becomes a child. The answer is what the child comes back to. -/
def enterChild : Work State := do
  let s ← get
  let outer := { s with jobs := Job.makeRoom s.jobs }
  set { s with
    self := s.nextPid
    nextPid := s.nextPid + 1
    ancestors := s.self :: s.ancestors
    child := s.child.or (some { pid := s.nextPid, start := s.now })
    traps := s.traps.filter fun entry => decide (entry.2 = [])
    pending := []
    flow := none
    loops := 0
    jobs := []
    kin := s.jobs ++ s.kin }
  return outer

/-- How a child has ended: its status, and the signal that ended it. -/
def State.outcome (s : State) : Nat × Option Nat :=
  match s.flow with
  | some (.exit code) => (code, none)
  | some (.signal number) => (128 + number, some number)
  | _ => (s.status, none)

/-- The time at which nobody is there any more to wait for something. -/
def endOfTime : Nat := 1000000000000

/-- The number of the signal that tells of the end of a child. -/
def childSignal : Nat := 17

/-- Comes back from a child, which leaves behind what it has done. -/
def leaveChild (outer : State) : Work Unit := do
  let s ← get
  let stuck := s.flow = some .stuck
  let asIs (job : Job) : Job := (s.kin.find? fun other => other.pid == job.pid).getD job
  set { outer with
    tree := { s.tree with cwd := outer.tree.cwd }
    status := s.outcome.1
    now := if stuck then endOfTime else s.now
    deeds := s.deeds
    files := s.files
    fileCount := s.fileCount
    nextPid := s.nextPid
    jobs := outer.jobs.map asIs
    kin := outer.kin.map asIs
    orphans := s.orphans ++ s.jobs
    later := s.later
    trees := s.trees
    sent := s.sent
    budget := s.budget }
  receive childSignal

/-- Announces the signal that has ended a child that was waited for. -/
def announce (signal : Option Nat) : Work Unit := do
  match signal.bind Signal.announcement? with
  | some text => writeText 2 (text ++ "\n")
  | none => pure ()

/-- Meets the signals that children have sent to the shell by now. One that it does not survive has
ended it when it came; the command that it was waiting for goes on. -/
def meetSignals : Work Unit := do
  let s ← get
  let isDue (sent : Sent) : Bool := sent.pid == s.self && decide (sent.time ≤ s.now)
  set { s with sent := s.sent.filter fun sent => !isDue sent }
  for sent in (s.sent.filter isDue).mergeSort fun a b => decide (a.time ≤ b.time) do
    if !(← halted) then
      receive sent.signal
      if ← halted then
        modify fun s => { s with
          now := sent.time
          orphans := s.orphans ++
            [{ number := 0, pid := 0, endsAt := s.now, status := 0, holds := s.held }] }

end InlineRepl.Rehearsal.Shell
