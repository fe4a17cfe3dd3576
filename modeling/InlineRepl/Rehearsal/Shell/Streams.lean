import InlineRepl.Rehearsal.Shell.State

/-!
# Redirections

What becomes of the streams of a shell when a redirection is carried out. A redirection that cannot
be is complained about.
-/

namespace InlineRepl.Rehearsal.Shell

/-- The stream that a path stands for. -/
def streamOf? (path : String) : Option Nat :=
  match path with
  | "/dev/stdin" => some 0
  | "/dev/stdout" => some 1
  | "/dev/stderr" => some 2
  | _ =>
    (["/dev/fd/", "/proc/self/fd/"].find? fun front => path.startsWith front).bind fun front =>
      match path.toList.drop front.length with
      | [c] => if c.isDigit then some (digitValue c) else none
      | _ => none

/-- Lets a stream lead to where another one leads. -/
def copyStream (stream other : Nat) : Work Bool := do
  let s ← get
  match s.streams.lookup other with
  | some number =>
    set (s.setStream stream (some number))
    return true
  | none =>
    complain (toString other ++ ": Bad file descriptor")
    return false

/-- Lets a stream lead to a file that is opened for it. -/
def openStream (stream : Nat) (file : OpenFile) : Work Unit :=
  modify fun s =>
    let s := s.openFile file
    s.setStream stream (some s.lastFile)

/-- The channel that a device makes. -/
def deviceChannel (place : Place) : Channel :=
  match place with
  | ["dev", "urandom"] | ["dev", "zero"] => .zeros
  | ["dev", "full"] => .full
  | _ => .nowhere

/-- How a file is opened that is to be written. -/
inductive Opening where
  | truncate
  /-- Only a new file. -/
  | create
  | append
  /-- It is read, too, and kept as it is. -/
  | both
  deriving Repr, DecidableEq

/-- Opens a file to be written. -/
def openToWrite (stream : Nat) (path : String) (how : Opening) : Work Bool := do
  match streamOf? path with
  | some other => copyStream stream other
  | none =>
    let s ← get
    let refuse (text : String) : Work Bool := do
      complain ((if how = .both then "cannot open " else "cannot create ") ++ path ++ ": " ++ text)
      return false
    match s.tree.resolve true ⟨path⟩ with
    | .error fault => refuse (reasonFor "Directory nonexistent" fault)
    | .ok place =>
      let open_ (channel : Channel) : Work Bool := do
        openStream stream
          { channel, reads := how = .both, writes := true, appends := how = .append }
        return true
      let file (bytes : List UInt8) (executable : Bool) : Work Bool := do
        set { s with tree := s.tree.put place (.file bytes executable) }
        open_ (.file place)
      match s.tree.at? place with
      | some .directory => refuse "Is a directory"
      | some .device =>
        if place = ["dev", "tty"] then refuse "No such device or address"
        else open_ (deviceChannel place)
      | some (.file bytes executable) =>
        if how = .create then refuse "File exists"
        else file (if how = .truncate then [] else bytes) executable
      | _ => if path.endsWith "/" then refuse "Is a directory" else file [] false

/-- Opens a file to be read. -/
def openToRead (stream : Nat) (path : String) : Work Bool := do
  match streamOf? path with
  | some other => copyStream stream other
  | none =>
    let s ← get
    match s.tree.resolve true ⟨path⟩, s.tree.readBytes ⟨path⟩ with
    | .ok _, .error .isDirectory =>
      openStream stream { channel := .directory, reads := true }
      return true
    | .error fault, _ | _, .error fault =>
      complain ("cannot open " ++ path ++ ": " ++ reasonFor "No such file" fault)
      return false
    | .ok place, .ok _ =>
      let channel := match s.tree.at? place with
        | some .device => deviceChannel place
        | _ => .file place
      openStream stream { channel, reads := true }
      return true

/-- Carries out a redirection. The answer is whether it could be. -/
def redirect (stream : Nat) (mark : String) (target : List Char) : Work Bool := do
  let path := String.ofList target
  match mark with
  | ">&" | "<&" =>
    if target = ['-'] then
      modify fun s => s.setStream stream none
      return true
    else if target ≠ [] ∧ target.all Char.isDigit then
      copyStream stream (readDigits 10 target.length 0 target).1
    else
      raise "Syntax error: Bad fd number"
      return false
  | "<" => openToRead stream path
  | "<>" => openToWrite stream path .both
  | ">>" => openToWrite stream path .append
  | ">" => openToWrite stream path (if (← get).has 'C' then .create else .truncate)
  | _ => openToWrite stream path .truncate

/-- Lets the input be a text. -/
def redirectText (stream : Nat) (text : List Char) : Work Unit :=
  openStream stream { channel := .pipe, reads := true, held := [(0, encode text)] }

/-- The stream that a redirection changes. -/
def Redirection.stream : Redirection → Nat
  | target stream _ _ => stream
  | here stream _ => stream

/-- Lets streams lead again where they led before redirections, and closes the files that have been
opened since then and that no stream leads to. -/
def restoreStreams (before : State) (targets : List Redirection) : Work Unit :=
  modify fun s =>
    let s := (targets.map Redirection.stream).foldl (fun s stream =>
      s.setStream stream (before.streams.lookup stream)) s
    s.closeFiles fun number => decide (before.fileCount ≤ number) && !s.held.contains number

end InlineRepl.Rehearsal.Shell
