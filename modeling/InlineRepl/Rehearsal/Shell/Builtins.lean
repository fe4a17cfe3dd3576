import InlineRepl.Rehearsal.Image
import InlineRepl.Rehearsal.Shell.Children
import InlineRepl.Rehearsal.Shell.Condition
import InlineRepl.Rehearsal.Shell.Fields
import InlineRepl.Rehearsal.Shell.Reading

/-!
# Commands of the shell

The commands that the shell carries out itself and that run no others. A complaint of one of the
special commands ends the shell.
-/

namespace InlineRepl.Rehearsal.Shell.Builtins

/-- A text in quotes, as it can be read again. -/
def requoted (cs : List Char) : List Char :=
  '\'' :: (cs.flatMap fun c => if c = '\'' then "'\"'\"'".toList else [c]) ++ ['\'']

/-! ## Output -/

/-- Writes by a format, which is the first argument. -/
def writeFormat (args : List (List Char)) : Work Unit := do
  match args with
  | [] => refuse "usage: printf format [arg ...]"
  | text :: args =>
    let written := format text args
    if written.fault.isNone then say written.bytes
    for (arg, begins) in written.complaints do
      complain (String.ofList arg ++
        (if begins then ": not completely converted" else ": expected numeric value"))
      setStatus 1
    match written.fault with
    | some fault =>
      say written.bytes
      refuse (String.ofList fault)
    | none => pure ()

/-- Writes by a format. -/
def printf (args : List (List Char)) : Work Unit :=
  withFlags "" args fun _ => writeFormat

/-- Writes the working directory. -/
def pwd (args : List (List Char)) : Work Unit :=
  withFlags "LP" args fun flags _ => do
    let s ← get
    let real := (Tree.pathOf s.tree.cwd).text.toList
    say (encode (if flags.contains 'P' then real else s.directory) ++ [10])

/-! ## The working directory -/

/-- A path from the root without dots. -/
def tidied (path : List Char) : List Char :=
  let names := (Text.split '/' path).foldl (fun names piece =>
    if piece = [] ∨ piece = ['.'] then names
    else if piece = ['.', '.'] then names.drop 1
    else piece :: names) []
  if names.isEmpty then ['/'] else names.reverse.flatMap fun name => '/' :: name

/-- Goes to a directory. -/
def cd (args : List (List Char)) : Work Unit :=
  withFlags "LP" args fun flags args => do
    let s ← get
    let back := args.head? = some ['-']
    let target := match args with
      | [] => s.value "HOME"
      | ['-'] :: _ => (s.values.lookup "OLDPWD".toList).getD s.directory
      | target :: _ => target
    let path := if target.head? = some '/' then target else s.directory ++ '/' :: target
    let path := tidied path
    match s.tree.canonical ⟨String.ofList path⟩ with
    | .error _ => refuse ("can't cd to " ++ String.ofList (if back then path else target))
    | .ok real =>
      if s.tree.isDirectory real = false then refuse ("can't cd to " ++ String.ofList target)
      else
        let path := if flags.contains 'P' then real.text.toList else path
        let s := (s.assign "OLDPWD".toList s.directory).assign "PWD".toList path
        set { s with
          tree := { s.tree with cwd := Tree.steps real }
          exported := ["OLDPWD".toList, "PWD".toList] ++
            s.exported.filter fun name => name ≠ "OLDPWD".toList ∧ name ≠ "PWD".toList
          status := 0 }
        if back then say (encode path ++ [10])

/-! ## Variables -/

/-- The name and the value that an argument gives it. -/
def readAssignment (arg : List Char) : List Char × Option (List Char) :=
  let name := arg.takeWhile (· != '=')
  (name, if name.length = arg.length then none else some (arg.drop (name.length + 1)))

/-- Sets a variable, unless it is locked. -/
def assign (name value : List Char) : Work Unit := do
  let s ← get
  if s.locked.contains name then raise (String.ofList name ++ ": is read only")
  else if s.has 'a' then
    set { s.assign name value with exported := name :: s.exported.filter (· ≠ name) }
  else set (s.assign name value)

/-- The variables that pass a test, in order, as they can be set again. -/
def listing (s : State) (front : String) (keep : List Char → Bool) : String :=
  let chosen := (s.values.filter fun entry => keep entry.1).mergeSort fun a b =>
    decide (String.ofList a.1 ≤ String.ofList b.1)
  String.join (chosen.map fun (name, value) =>
    front ++ String.ofList name ++ "=" ++ String.ofList (requoted value) ++ "\n")

/-- Marks variables, some of which are set. -/
def markAll (front : String) (marked : State → List (List Char))
    (mark : List Char → State → State) (args : List (List Char)) : Work Unit :=
  withFlags "p" args fun flags args => do
    setStatus 0
    if args.isEmpty ∨ flags.contains 'p' then
      let s ← get
      sayText (listing s front (marked s).contains)
    else
      for arg in args do
        if ← halted then return
        match readAssignment arg with
        | (name, value) =>
          if isName name = false then refuse (String.ofList name ++ ": bad variable name")
          else
            match value with
            | some value => assign name value
            | none => pure ()
            modify (mark name)

/-- Takes variables or functions away. -/
def unset (args : List (List Char)) : Work Unit :=
  withFlags "vf" args fun flags args => do
    setStatus 0
    for name in args do
      if ← halted then return
      if flags.contains 'f' then
        modify fun s => { s with
          functions := s.functions.filter fun entry => decide (entry.1 ≠ name) }
      else if isName (readAssignment name).1 = false then
        refuse (String.ofList (readAssignment name).1 ++ ": bad variable name")
      else if (← get).locked.contains name then refuse (String.ofList name ++ ": is read only")
      else modify fun s => s.unassign name

/-- Keeps variables to the running function. -/
def keepLocal (args : List (List Char)) : Work Unit := do
  if (← get).calls = 0 then raise "not in a function"
  else
    setStatus 0
    for arg in args do
      if ← halted then return
      match readAssignment arg with
      | (name, value) =>
        if isName name = false then refuse (String.ofList name ++ ": bad variable name")
        else
          modify fun s => { s with saved := (name, s.values.lookup name) :: s.saved }
          match value with
          | some value => assign name value
          | none => pure ()

/-- Reads a line of the input into variables. -/
def read (args : List (List Char)) : Work Unit := do
  let s ← get
  let (raw, args) := match args with
    | ['-', 'r'] :: args => (true, args)
    | args => (false, args)
  let (prompt, args) := match args with
    | ['-', 'p'] :: prompt :: args => (prompt, args)
    | args => ([], args)
  let (raw, args) := match args with
    | ['-', 'r'] :: args => (true, args)
    | args => (raw, args)
  let _ := prompt
  if args.isEmpty then refuse "arg count"
  else
    match s.file? 0 with
    | none => setStatus 1
    | some (number, file) =>
      let (line, ended) ←
        if file.reads then takeLine raw continuationLimit number else pure ([], false)
      let named := args.takeWhile isName
      for (name, value) in named.zip (readWords s.separators args.length line) do
        if !(← halted) then assign name value
      if !(← halted) then
        match args.drop named.length with
        | [] => setStatus (if ended then 0 else 1)
        | name :: _ => refuse (String.ofList name ++ ": bad variable name")
where
  /-- The most line ends that a backslash may stand before. -/
  continuationLimit : Nat := 10000
  /-- Takes a line, which goes on behind a line end that a backslash stands before. -/
  takeLine (raw : Bool) : Nat → Nat → Work (List Marked × Bool)
    | 0, _ => return ([], false)
    | fuel + 1, number => do
      let bytes ← nextLine number
      let ended := bytes.getLast? == some 10
      let front := (if ended then bytes.dropLast else bytes).filter (· != 0)
      let cs := (Text.Utf8.decodeLossy front).toList
      if raw then return (cs.map fun c => (c, false), ended)
      else
        let (marked, open_) := unescapeLine cs
        if open_ && ended then
          let (more, ended) ← takeLine raw fuel number
          return (marked ++ more, ended)
        else return (marked, ended)
  /-- Takes backslashes away; the last one stands before the line end. -/
  unescapeLine : List Char → List Marked × Bool
    | ['\\'] => ([], true)
    | '\\' :: c :: cs => match unescapeLine cs with | (more, open_) => ((c, true) :: more, open_)
    | c :: cs => match unescapeLine cs with | (more, open_) => ((c, false) :: more, open_)
    | [] => ([], false)

/-! ## Arguments and options -/

/-- The letters of options with their names, in the order in which they are shown. -/
def optionNames : List (Char × String) :=
  [('e', "errexit"), ('f', "noglob"), ('I', "ignoreeof"), ('i', "interactive"), ('m', "monitor"),
    ('n', "noexec"), ('s', "stdin"), ('x', "xtrace"), ('v', "verbose"), ('V', "vi"), ('E', "emacs"),
    ('C', "noclobber"), ('a', "allexport"), ('b', "notify"), ('u', "nounset"), ('p', "privileged"),
    ('N', "nolog"), ('D', "debug")]

/-- Turns an option on or off. There is no terminal, and without one jobs cannot be watched. -/
def setOption (c : Char) (on : Bool) : Work Unit := do
  if on ∧ (c = 'm' ∨ c = 'i') then complain "can't access tty; job control turned off"
  modify fun s =>
    let wanted := if on ∧ c ≠ 'm' then c :: s.options else s.options.filter (· ≠ c)
    { s with options := ((optionNames.map Prod.fst).filter wanted.contains).reverse }

/-- Reads options; the answer is what follows them, and whether that replaces the arguments. -/
def readOptions : List (List Char) → Work (List (List Char) × Bool)
  | [] => return ([], false)
  | ['-', '-'] :: args => return (args, true)
  | ['-'] :: args => return (args, !args.isEmpty)
  | ['-', 'o'] :: name :: args => do
    named true name
    if ← halted then return ([], false) else readOptions args
  | ['+', 'o'] :: name :: args => do
    named false name
    if ← halted then return ([], false) else readOptions args
  | ['-', 'o'] :: [] => do
    sayText ("Current option settings\n" ++ String.join (← states))
    return ([], false)
  | (sign :: c :: cs) :: args => do
    if sign = '-' ∨ sign = '+' then
      for c in c :: cs do
        if !(← halted) then
          if optionNames.any fun entry => entry.1 == c && c.isAlpha && !"ND".toList.contains c then
            setOption c (sign == '-')
          else raise ("Illegal option -" ++ String.ofList [c])
      if ← halted then return ([], false) else readOptions args
    else return ((sign :: c :: cs) :: args, true)
  | args => return (args, true)
where
  /-- Turns an option on or off by its name. -/
  named (on : Bool) (name : List Char) : Work Unit :=
    match optionNames.find? fun entry => entry.2 == String.ofList name with
    | some (c, _) => setOption c on
    | none => raise ("Illegal option -o " ++ String.ofList name)
  /-- The options and whether they are on. -/
  states : Work (List String) := do
    let s ← get
    return optionNames.map fun (c, name) =>
      name ++ String.ofList (List.replicate (16 - name.length) ' ') ++
        (if s.has c then "on\n" else "off\n")

/-- Turns options on and off and replaces the arguments. -/
def setAll (args : List (List Char)) : Work Unit := do
  if args.isEmpty then
    sayText (listing (← get) "" fun _ => true)
  else
    setStatus 0
    let (rest, replaced) ← readOptions args
    if replaced && !(← halted) then
      modify fun s => { s with args := rest }

/-- Drops arguments. -/
def shift (args : List (List Char)) : Work Unit :=
  withNumber (args.headD ['1']) fun n => do
    let s ← get
    if s.args.length < n then refuse "can't shift that many"
    else set { s with args := s.args.drop n, status := 0 }

/-! ## Ends -/

/-- Ends the shell. -/
def exit (args : List (List Char)) : Work Unit := do
  match args with
  | [] => halt (.exit (← get).status)
  | cs :: _ => withNumber cs fun n => halt (.exit (n % 256))

/-- Ends a function. -/
def ret (args : List (List Char)) : Work Unit := do
  match args with
  | [] => halt .ret
  | cs :: _ =>
    withNumber cs fun n => do
      setStatus n
      halt .ret

/-- Leaves loops, or begins one again. -/
def leaveLoops (again : Bool) (args : List (List Char)) : Work Unit :=
  withNumber (args.headD ['1']) fun n => do
    let s ← get
    if n = 0 then refuse "Illegal number: 0"
    else
      setStatus 0
      if s.loops ≠ 0 then halt (.leave again (min n s.loops))

/-! ## Signals and children -/

/-- Sets traps. -/
def trap (args : List (List Char)) : Work Unit := do
  let args := if args.head? = some ['-', '-'] then args.drop 1 else args
  let isSignal (cs : List Char) : Bool := (number? cs).isSome
  match args with
  | [] =>
    let s ← get
    let shown := s.traps.mergeSort fun a b => decide (a.1 ≤ b.1)
    sayText (String.join (shown.map fun (number, script) =>
      "trap -- " ++ String.ofList (requoted script) ++ " " ++ Signal.nameOf number ++ "\n"))
  | first :: rest =>
    let (action, signals) :=
      if rest.isEmpty ∨ isSignal first then (none, first :: rest)
      else (if first = ['-'] then none else some first, rest)
    setStatus 0
    for name in signals do
      match Signal.read? (String.ofList name) with
      | none =>
        writeText 2 ("trap: " ++ String.ofList name ++ ": bad trap\n")
        setStatus 1
        return
      | some number =>
        modify fun s =>
          let others := s.traps.filter fun entry => decide (entry.1 ≠ number)
          { s with traps := (action.map fun script => (number, script)).toList ++ others }

/-! ## What else the shell has -/

/-- Answers a condition. -/
def test (args : List (List Char)) : Work Unit := do
  match Condition.answer (← get).tree (args.map String.ofList) with
  | .ok answer => setStatus (if answer then 0 else 1)
  | .error fault => refuse fault

/-- Answers a condition in brackets. -/
def bracket (args : List (List Char)) : Work Unit :=
  if args.getLast? = some [']'] then test args.dropLast else refuse "missing ]"

/-! ## What a name stands for -/

/-- The path of the program that a name stands for, or why there is none. -/
def findProgram (s : State) (name : List Char) : Except FileFault (List Char) :=
  let here (path : List Char) : Except FileFault Unit :=
    match s.tree.find ⟨String.ofList path⟩ with
    | .ok (.file _ true) => .ok ()
    | .ok _ => .error .permissionDenied
    | .error fault => .error fault
  let rec search (seen : FileFault) : List (List Char) → Except FileFault (List Char)
    | [] => .error seen
    | dir :: dirs =>
      let path := if dir = [] then name else dir ++ '/' :: name
      match here path with
      | .ok _ => .ok path
      | .error .notFound | .error .notDirectory => search seen dirs
      | .error fault => search fault dirs
  if name.contains '/' then (here name).map fun _ => name
  else search .notFound (Text.split ':' (s.value "PATH"))

/-- Tells what names stand for; `long` says so in words. -/
def tell (long : Bool) (names : List (List Char)) : Work Unit := do
  let s ← get
  let answers := names.map fun name =>
    let text := String.ofList name
    let as_ (kind : String) : String × Bool :=
      (text ++ (if long then " is " ++ kind else "") ++ "\n", true)
    if keywords.contains text then as_ "a shell keyword"
    else if specialCommands.contains text then as_ "a special shell builtin"
    else if (s.functions.lookup name).isSome then as_ "a shell function"
    else if regulars.contains text then as_ "a shell builtin"
    else
      match findProgram s name with
      | .ok path =>
        ((if long then text ++ " is " else "") ++ String.ofList path ++ "\n", true)
      | .error _ => (if long then text ++ ": not found\n" else "", false)
  sayText (String.join (answers.map Prod.fst))
  if answers.any fun answer => !answer.2 then setStatus 127

/-- A command of the shell, if it is one of those that run no others. -/
def run? (name : String) (args : List (List Char)) : Option (Work Unit) :=
  match name with
  | ":" | "true" => some (setStatus 0)
  | "false" => some (setStatus 1)
  | "echo" => some (say (Shell.echo args))
  | "printf" => some (printf args)
  | "pwd" => some (pwd args)
  | "cd" => some (cd args)
  | "export" =>
    some (markAll "export " State.exported (fun name s =>
      { s with exported := name :: s.exported.filter (· ≠ name) }) args)
  | "readonly" =>
    some (markAll "readonly " State.locked (fun name s =>
      { s with locked := name :: s.locked }) args)
  | "unset" => some (unset args)
  | "local" => some (keepLocal args)
  | "read" => some (read args)
  | "set" => some (setAll args)
  | "shift" => some (shift args)
  | "exit" => some (exit args)
  | "return" => some (ret args)
  | "break" => some (leaveLoops false args)
  | "continue" => some (leaveLoops true args)
  | "trap" => some (trap args)
  | "kill" => some (kill args)
  | "wait" => some (wait args)
  | "test" => some (test args)
  | "[" => some (bracket args)
  | "type" => some (tell true args)
  | _ => none

end InlineRepl.Rehearsal.Shell.Builtins
