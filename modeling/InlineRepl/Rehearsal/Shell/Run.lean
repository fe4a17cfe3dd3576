import InlineRepl.Rehearsal.Program.Table
import InlineRepl.Rehearsal.Shell.Streams
import InlineRepl.Rehearsal.Shell.Sum

/-!
# Running scripts

A shell reads its script command by command and carries each command out before it reads the next.
Subshells, the stages of pipes, commands that are not waited for and programs are children: they get
a copy of what the shell knows, and leave behind only what they have done.

The fuel bounds how deep commands nest, turns of a loop included; a script that has used it up does
nothing more. A script that has run too many commands, or for too long, never comes to its end.
-/

namespace InlineRepl.Rehearsal.Shell

/-- Counts a command. -/
def spend : Work Unit := do
  settleTree
  keepTree
  modify fun s =>
    if s.budget = 0 ∨ horizon < s.now then { s with flow := some .stuck }
    else { s with budget := s.budget - 1 }

/-- Ends the shell where a command has failed that nobody asks about, if it is to end there. -/
def checkStatus (tested : Bool) : Work Unit :=
  modify fun s =>
    if s.has 'e' ∧ tested = false ∧ s.status ≠ 0 ∧ s.flow = none then
      { s with flow := some (.exit s.status) }
    else s

/-- Meets the end of a turn of a loop. The answer is whether there may be another one. -/
def endTurn : Work Bool := do
  let s ← get
  match s.flow with
  | none => return true
  | some (.leave again levels) =>
    if levels ≤ 1 then
      set { s with flow := none }
      return again
    else
      set { s with flow := some (.leave again (levels - 1)) }
      return false
  | some _ => return false

/-- A word with a home directory in place of a tilde, and of the name behind it, at its front. -/
def withHome (s : State) (word : Word) : Word :=
  match word with
  | .char '~' false :: rest =>
    let isNamed (piece : Piece) : Bool :=
      match piece with
      | .char c false => c != '/'
      | _ => false
    let name := rest.takeWhile isNamed
    let follows := match rest.drop name.length with
      | [] | .char '/' false :: _ => true
      | _ => false
    let home? := match bare? name with
      | some [] => s.values.lookup "HOME".toList
      | some ['r', 'o', 'o', 't'] => some "/root".toList
      | _ => none
    match home?, follows with
    | some home, true => home.map (fun c => .char c true) ++ rest.drop name.length
    | _, _ => word
  | _ => word

/-- The characters at the front of a word, and what follows them. -/
def leadingChars : Word → List Fragment × Word
  | .char c quoted :: rest =>
    match leadingChars rest with
    | (cs, rest) => (.char c quoted :: cs, rest)
  | .quotes :: rest =>
    match leadingChars rest with
    | (cs, rest) => (.quotes :: cs, rest)
  | word => ([], word)

/-- A text without the line ends at its end. -/
def chomp (cs : List Char) : List Char :=
  (cs.reverse.dropWhile (· == '\n')).reverse

/-- Fragments of a word that stands in place of an unquoted value: they are split, too. -/
def softened (quoted : Bool) (fragments : List Fragment) : List Fragment :=
  if quoted then .quotes :: fragments
  else fragments.map fun fragment =>
    match fragment with
    | .char c false => .soft [c]
    | other => other

/-- How a new shell is called. -/
structure ShellCall where
  /-- Its options, each in a word of its own. -/
  flags : List (List Char) := []
  /-- Its script is the first of the other arguments, not in a file. -/
  command : Bool := false
  /-- Its script is the input. -/
  stdin : Bool := false
  rest : List (List Char) := []

/-- Reads the arguments of a new shell, up to an option that there is not. -/
def ShellCall.read : ShellCall → List (List Char) → ShellCall
  | call, [] => call
  | call, ['-', '-'] :: args => { call with rest := args }
  | call, ['-'] :: args => { call with rest := args }
  | call, ['-', 'o'] :: name :: args =>
    read { call with flags := call.flags ++ [['-', 'o'], name] } args
  | call, ('-' :: cs) :: args =>
    let isKnown (c : Char) : Bool :=
      "csli".toList.contains c || c == 'o' || Builtins.optionNames.any fun entry => entry.1 == c
    let plain := cs.filter fun c => !"clo".toList.contains c
    let flags := call.flags ++ (if plain = [] then [] else ['-' :: plain])
    let call := { call with
      command := call.command || cs.contains 'c'
      stdin := call.stdin || cs.contains 's' }
    match cs.find? fun c => !isKnown c with
    | some c => { call with flags := call.flags ++ [['-', c, c]], rest := args }
    | none =>
      if cs.contains 'o' then
        match args with
        | name :: args => read { call with flags := flags ++ [['-', 'o'], name] } args
        | [] => { call with flags := flags ++ [['-', 'o']] }
      else read { call with flags } args
  | call, ('+' :: cs) :: args => read { call with flags := call.flags ++ ['+' :: cs] } args
  | call, args => { call with rest := args }

/-- The variables that every shell sets. -/
def shellValues : List (List Char × List Char) :=
  [("IFS", " \t\n"), ("OPTIND", "1"), ("PS1", "# "), ("PS2", "> "), ("PS4", "+ ")].map
    fun (name, value) => (name.toList, value.toList)

/-- Becomes a new shell, which knows the variables that it is given and where its streams lead. -/
def becomeShell (name : List Char) : Work Unit :=
  modify fun s =>
    let given := s.environment
    let here := (Tree.pathOf s.tree.cwd).text.toList
    let kept := (given.lookup "PWD".toList).filter fun path =>
      path.head? = some '/' ∧
        ((s.tree.canonical ⟨String.ofList path⟩).toOption.map Path.text) = some (String.ofList here)
    let values := given ++ shellValues.filter fun entry => (given.lookup entry.1).isNone
    let fresh := { s with
      name, args := [], values, locked := [], functions := [], options := [], status := 0, line := 0
      lineShift := 0, command := [], pid := s.self, lastAside := none, loops := 0, calls := 0
      saved := [], flow := none, pending := []
      traps := s.traps.filter fun entry => decide (entry.2 = []) }
    let parent := (toString (s.ancestors.headD 1)).toList
    let fresh := (fresh.assign "PPID".toList parent).assign "PWD".toList (kept.getD here)
    { fresh with exported := "PWD".toList :: s.exported.filter (· ≠ "PWD".toList) }

/-- Writes the command that is about to run to where complaints went before its redirections. -/
def trace (before : State) (texts : List (List Char)) : Work Unit := do
  if before.has 'x' then
    match before.streams.lookup 2 with
    | some number =>
      writeTo number (encode (before.value "PS4" ++ List.intercalate [' '] texts ++ ['\n']))
    | none => pure ()

/-- Sets variables back to what they were before they were lent to a command. -/
def takeBack (before : State) (names : List (List Char)) : Work Unit :=
  modify fun s => names.foldl (fun s name =>
    let s := s.restore name (before.values.lookup name)
    if before.exported.contains name then s
    else { s with exported := s.exported.filter (· ≠ name) }) s

/-- The text of a word that nothing has to be looked up for. -/
def plainWord? (word : Word) : Option String :=
  let plain? (piece : Piece) : Option (List Char) :=
    match piece with
    | .char c _ => some [c]
    | .quotes => some []
    | _ => none
  (word.mapM plain?).map fun cs => String.ofList cs.flatten

/-- The files that a stage of a pipe opens before anything else, and whether it keeps what they
hold. -/
def upcomingFiles (stage : Script) : List (String × Bool) :=
  let opened (targets : List Redirection) : List (String × Bool) :=
    targets.filterMap fun target =>
      match target with
      | .target _ mark word =>
        if [">", ">|", ">>"].contains mark then
          (plainWord? word).map fun path => (path, decide (mark = ">>"))
        else none
      | .here .. => none
  match stage with
  | .simple _ _ _ targets => opened targets
  | .redirected _ _ targets => opened targets
  | .subshell (.simple _ _ _ targets) => opened targets
  | _ => []

/-- Opens the files that the later stages of a pipe open. -/
def openUpcoming : Work Unit :=
  modify fun s =>
    let tree := s.upcoming.foldl (fun tree (path, keeps) =>
      match tree.resolve true ⟨path⟩ with
      | .error _ => tree
      | .ok place =>
        match tree.at? place with
        | none => tree.put place (.file [] false)
        | some (.file _ executable) =>
          if keeps then tree else tree.put place (.file [] executable)
        | some _ => tree) s.tree
    { s with tree, upcoming := [] }

/-- An open file of a child's as its parent has it, if it had it open before: a parent that does not
wait does not know yet how far the child has come in it. -/
def OpenFile.asBefore (file : OpenFile) (before : Option OpenFile) : OpenFile :=
  match file.channel, before with
  | .file _, some before => { file with position := before.position }
  | _, _ => file

/-- The text that is left of the input. -/
def readInput : Work (List Char) := do
  match (← get).file? 0 with
  | some (number, { reads := true, .. }) =>
    return (Text.Utf8.decodeLossy (← readAll number)).toList
  | _ => return []

/-- What is carried out when a program is started that is looked up on the search path. A file that
is no program is carried out as a script. -/
def imageFor (s : State) (argv : List String) : Except FileFault Image :=
  let program := argv.headD ""
  let path := ((s.environment.lookup "PATH".toList).map String.ofList).getD Standard.barePath
  match Image.locate s.tree path program argv with
  | .error .notExecutable =>
    match Builtins.findProgram s program.toList with
    | .ok path => .ok { program := "sh", argv := "sh" :: String.ofList path :: argv.drop 1 }
    | .error fault => .error fault
  | answer => answer

/-- Goes on as a program that is not there would be complained about. -/
def missing (name : List Char) (looked : Bool) (fault : FileFault) : Work Unit := do
  let isMissing : Bool := match fault with
    | .notFound | .notDirectory | .tooManyLinks | .nameTooLong => true
    | _ => false
  complain (String.ofList name ++ ": " ++ reasonFor "not found" fault)
  setStatus (if looked ∨ isMissing then 127 else 126)

mutual

/-- Expands the pieces of a word. -/
def expandPieces : Nat → Word → Work (List Fragment)
  | 0, _ => return []
  | fuel + 1, word => do
    let (front, rest) := leadingChars word
    match rest with
    | [] => return front
    | piece :: rest =>
      let middle ← expandPiece fuel piece
      if ← halted then return []
      let back ← expandPieces fuel rest
      return front ++ middle ++ back

/-- Expands a piece of a word. -/
def expandPiece : Nat → Piece → Work (List Fragment)
  | 0, _ => return []
  | fuel + 1, piece => do
    match piece with
    | .char c quoted => return [.char c quoted]
    | .quotes => return [.quotes]
    | .param name edit quoted => expandParam fuel name edit quoted
    | .output script quoted =>
      let text ← takeOutput fuel script
      return valueFragments quoted (chomp text)
    | .sum expression quoted =>
      let text := textOf (← expandPieces fuel expression)
      if ← halted then return []
      match Sum.evaluate (← get).values text with
      | .error fault =>
        raise fault
        return []
      | .ok (n, assigned) =>
        for (name, value) in assigned.reverse do
          Builtins.assign name value
        return valueFragments quoted (shown n)

/-- Expands a parameter. -/
def expandParam : Nat → List Char → Edit → Bool → Work (List Fragment)
  | 0, _, _, _ => return []
  | fuel + 1, name, edit, quoted => do
    let s ← get
    let value? := s.value? name
    let fault (text : String) : Work (List Fragment) := do
      raise (String.ofList name ++ ": " ++ text)
      return []
    let isStrict := s.has 'u' ∧ ¬"@*!".toList.contains (name.headD '_')
    let whole : List Fragment :=
      if name = ['@'] then argFragments quoted s.args
      else if name = ['*'] then
        if quoted then quotedFragments (s.joinedArgs (s.separators.take 1))
        else argFragments false s.args
      else valueFragments quoted (value?.getD [])
    match edit with
    | .none => if value?.isNone ∧ isStrict then fault "parameter not set" else return whole
    | .bad =>
      raise "Bad substitution"
      return []
    | .length =>
      if value?.isNone ∧ isStrict then fault "parameter not set"
      else if name = ['@'] ∨ name = ['*'] then
        return valueFragments quoted (toString s.args.length).toList
      else return valueFragments quoted (toString (encode (value?.getD [])).length).toList
    | .instead mark alsoEmpty word =>
      let isAbsent := value?.isNone ∨ (alsoEmpty ∧ value? = some [])
      match mark with
      | '+' =>
        if isAbsent then return valueFragments quoted []
        else return softened quoted (← expandPieces fuel word)
      | '-' =>
        if isAbsent then return softened quoted (← expandPieces fuel (withHome s word))
        else return whole
      | '=' =>
        if isAbsent then
          let text := textOf (← expandPieces fuel (withHome s word))
          if ← halted then return []
          Builtins.assign name text
          return valueFragments quoted text
        else return whole
      | _ =>
        if isAbsent then
          let text := textOf (← expandPieces fuel word)
          if ← halted then return []
          fault (if word.isEmpty then
              "parameter not set" ++ (if alsoEmpty then " or null" else "")
            else String.ofList text)
        else return whole
    | .trim front longest pattern =>
      if value?.isNone ∧ isStrict then fault "parameter not set"
      else
        let pattern := markedOf (← expandPieces fuel pattern)
        let cut := if front then trimFront else trimBack
        return valueFragments quoted (cut longest pattern (value?.getD []))

/-- Runs a script in a child and takes what it writes, until nobody holds the pipe any more that it
is written to. -/
def takeOutput : Nat → Script → Work (List Char)
  | 0, _ => return []
  | fuel + 1, script => do
    let outer ← enterChild
    modify fun s =>
      let s := s.openFile { channel := .pipe, reads := true, writes := true }
      s.setStream 1 (some s.lastFile)
    let number := (← get).lastFile
    evaluate fuel false script
    finish fuel
    leaveChild outer
    modify fun s => { s with
      outputStatus := s.status, status := outer.status
      now := max s.now (s.releasedAt (· == number)) }
    let parts ← takeFrom number id
    modify fun s => s.closeFiles (· == number)
    meetSignals
    let bytes := (parts.flatMap Prod.snd).filter (· != 0)
    return (Text.Utf8.decodeLossy bytes).toList

/-- Expands words to fields. -/
def expandWords : Nat → List Word → Work (List (List Char))
  | 0, _ => return []
  | _, [] => return []
  | fuel + 1, word :: words => do
    let fragments ← expandPieces fuel (withHome (← get) word)
    if ← halted then return []
    let s ← get
    let fields := fieldsOf s.separators fragments
    let first := if s.has 'f' then fields.map plainText else fields.flatMap (pathsOf s.tree)
    return first ++ (← expandWords fuel words)

/-- Expands a word to one text. -/
def expandText : Nat → Word → Work (List Char)
  | 0, _ => return []
  | fuel + 1, word => do
    return textOf (← expandPieces fuel (withHome (← get) word))

/-- Carries out redirections. The answer is whether all of them could be. -/
def redirectAll : Nat → List Redirection → Work Bool
  | 0, _ => return true
  | _, [] => return true
  | fuel + 1, first :: rest => do
    let done ← match first with
      | .here stream number => do
        let text := textOf (← expandPieces fuel (((← get).texts.lookup number).getD []))
        -- A fault in the text only keeps the command from running.
        let failed ← halted
        modify fun s => { s with flow := if s.flow = some (.exit 2) then none else s.flow }
        if !failed then redirectText stream text
        pure !failed
      | .target stream mark word => do
        let text ← expandText fuel word
        if ← halted then pure false else redirect stream mark text
    if done && !(← halted) then redirectAll fuel rest else return false

/-- Carries out a script. `tested` says that somebody asks how it ends. -/
def evaluate : Nat → Bool → Script → Work Unit
  | 0, _, _ => return
  | fuel + 1, tested, script => do
    if (← halted) || (← get).has 'n' then return
    match script with
    | .nothing => return
    | .sequence first second =>
      evaluate fuel tested first
      evaluate fuel tested second
    | .both first second =>
      evaluate fuel true first
      if (← get).status = 0 then evaluate fuel tested second
    | .either first second =>
      evaluate fuel true first
      if (← get).status ≠ 0 then evaluate fuel tested second
    | .negation inner =>
      evaluate fuel true inner
      if !(← halted) then setStatus (if (← get).status = 0 then 1 else 0)
    | .branch condition yes no =>
      evaluate fuel true condition
      if ← halted then return
      if (← get).status = 0 then evaluate fuel tested yes
      else
        match no with
        | .nothing => setStatus 0
        | no => evaluate fuel tested no
    | .loop while_ condition body =>
      modify fun s => { s with loops := s.loops + 1 }
      runLoop fuel tested while_ condition body 0
      modify fun s => { s with loops := s.loops - 1 }
    | .each name words body =>
      let values ← match words with
        | some words => expandWords fuel words
        | none => do pure (← get).args
      if ← halted then return
      modify fun s => { s with loops := s.loops + 1, status := 0 }
      runEach fuel tested name values body
      modify fun s => { s with loops := s.loops - 1 }
    | .select word cases =>
      let text ← expandText fuel word
      if ← halted then return
      setStatus 0
      runSelect fuel tested text cases
    | .function name body =>
      modify fun s => { s with
        functions := (name, s.line, body) :: s.functions.filter fun entry => decide (entry.1 ≠ name)
        status := 0 }
    | .redirected line body targets =>
      modify fun s => { s with line }
      let before ← get
      if ← redirectAll fuel targets then evaluate fuel tested body
      else if !(← halted) then setStatus 2
      restoreStreams before targets
    | .subshell body =>
      let outer ← enterChild
      evaluate fuel tested body
      finish fuel
      let signal := (← get).outcome.2
      leaveChild outer
      announce signal
      settle fuel tested
    | .pipe stages =>
      let before ← get
      let ends ← runStages fuel tested before none stages
      modify fun s => { s with now := max s.now ends }
      settle fuel tested
    | .aside body => runAside fuel body
    | .simple line assignments words targets =>
      modify fun s => { s with line, outputStatus := 0 }
      spend
      if ← halted then return
      let fields ← expandWords fuel words
      if ← halted then return
      runSimple fuel tested assignments fields targets
      settle fuel tested

/-- Meets what has happened while a command ran. -/
def settle : Nat → Bool → Work Unit
  | 0, _ => return
  | fuel + 1, tested => do
    meetSignals
    runPending fuel
    checkStatus tested

/-- Runs the traps of signals that have arrived. -/
def runPending : Nat → Work Unit
  | 0 => return
  | fuel + 1 => do
    let s ← get
    match s.pending, s.flow with
    | number :: rest, none =>
      set { s with pending := rest }
      match s.traps.lookup number with
      | some script =>
        runText fuel true script
        if !(← halted) then setStatus s.status
      | none => pure ()
      runPending fuel
    | _, _ => return

/-- Runs the trap of the end, if there is one. -/
def finish : Nat → Work Unit
  | 0 => return
  | fuel + 1 => do
    let s ← get
    let code := s.outcome.1
    match s.traps.lookup 0, s.flow with
    | none, _ | _, some (.signal _) | _, some .stuck => return
    | some script, _ =>
      set { s with
        status := code, flow := none
        traps := s.traps.filter fun entry => decide (entry.1 ≠ 0) }
      runText fuel true script
      if !(← halted) then halt (.exit code)

/-- Runs the turns of a loop. `last` is the status of the turn before. -/
def runLoop : Nat → Bool → Bool → Script → Script → Nat → Work Unit
  | 0, _, _, _, _, _ => return
  | fuel + 1, tested, while_, condition, body, last => do
    spend
    evaluate fuel true condition
    if ← endTurn then
      if ((← get).status = 0) = while_ then
        evaluate fuel tested body
        if ← endTurn then runLoop fuel tested while_ condition body (← get).status
      else setStatus last

/-- Runs a loop for each of some values. -/
def runEach : Nat → Bool → List Char → List (List Char) → Script → Work Unit
  | 0, _, _, _, _ => return
  | _, _, _, [], _ => return
  | fuel + 1, tested, name, value :: values, body => do
    Builtins.assign name value
    evaluate fuel tested body
    if ← endTurn then runEach fuel tested name values body

/-- Runs the first case that matches a text. -/
def runSelect : Nat → Bool → List Char → List (List Word × Script) → Work Unit
  | 0, _, _, _ => return
  | _, _, _, [] => return
  | fuel + 1, tested, text, (words, body) :: cases => do
    let hit ← words.foldlM (fun hit word => do
      if hit then return true
      else return isMatch (markedOf (← expandPieces fuel (withHome (← get) word))) text) false
    if ← halted then return
    if hit then evaluate fuel tested body else runSelect fuel tested text cases

/-- Runs the stages of a pipe, which all begin at the same time; the first one reads from the given
open file. The answer is when the last of them has ended. A stage that would write for ever ends
with those that read it. -/
def runStages : Nat → Bool → State → Option Nat → List Script → Work Nat
  | 0, _, before, _, _ => return before.now
  | _, _, before, _, [] => return before.now
  | fuel + 1, tested, before, source, stage :: rest => do
    modify fun s => { s with now := before.now, status := before.status }
    let outer ← enterChild
    modify fun s => { s with upcoming := rest.flatMap upcomingFiles ++ s.upcoming }
    if let some number := source then
      modify fun s => s.setStream 0 (some number)
    if !rest.isEmpty then
      modify fun s =>
        let s := s.openFile { channel := .pipe, reads := true, writes := true }
        s.setStream 1 (some s.lastFile)
    let opened := (← get).lastFile
    let goal := if rest.isEmpty then none else some opened
    evaluate fuel tested stage
    finish fuel
    let s ← get
    let signal := s.outcome.2
    let isEndless := s.flow == some .stuck && !rest.isEmpty
    leaveChild outer
    announce signal
    if isEndless then modify fun s => { s with budget := before.budget / 2 }
    let now := (← get).now
    let ends := if isEndless then before.now else now
    match goal with
    | none => return ends
    | some number =>
      modify fun s => s.withFile number fun file => { file with
        writes := false
        closedAt := max ends (s.releasedAt (· == number)) }
      let others ← runStages fuel tested before (some number) rest
      modify fun s => s.closeFiles (· == number)
      return max ends others

/-- Starts a command that is not waited for. What it changes in the directory tree is seen when it
has come to that. -/
def runAside : Nat → Script → Work Unit
  | 0, _ => return
  | fuel + 1, script => do
    let outer ← enterChild
    modify fun s =>
      let s := s.openFile { channel := .nowhere, reads := true }
      { s.setStream 0 (some s.lastFile) with trees := [(s.now, s.tree)] }
    let pid := (← get).self
    let (inner, targets) := match script with
      | .simple line assignments words targets => (Script.simple line assignments words [], targets)
      | .redirected _ body targets => (body, targets)
      | script => (script, [])
    if ← redirectAll fuel targets then
      let start := (← get).tree
      let holds := (← get).held
      evaluate fuel false inner
      finish fuel
      keepTree
      let s ← get
      let stages := match inner with
        | .pipe stages => stages.length
        | _ => 1
      let job : Job := {
        number := Job.nextNumber outer.jobs
        pid, holds, stages, status := s.outcome.1, signal := s.outcome.2
        endsAt := if s.flow = some .stuck then endOfTime else s.now }
      leaveChild outer
      let changes := aftermaths pid start s.trees.reverse
      modify fun after => { after with
        tree := { start with cwd := outer.tree.cwd }
        files := after.files.map fun (number, file) =>
          (number, file.asBefore (outer.files.lookup number))
        trees := outer.trees
        later := after.later ++ changes
        jobs := after.jobs ++ [job] }
    else leaveChild outer
    modify fun s => { s with
      now := outer.now, lastAside := some pid, status := 0, pending := outer.pending }
    settleTree

/-- Runs a simple command whose words are known. -/
def runSimple : Nat → Bool → List (List Char × Word) → List (List Char) → List Redirection →
    Work Unit
  | 0, _, _, _, _ => return
  | fuel + 1, tested, assignments, fields, targets => do
    let before ← get
    let special := match fields with
      | name :: _ => specialCommands.contains (String.ofList name)
      | [] => false
    if ← redirectAll fuel targets then
      let given ← assignAll fuel (!fields.isEmpty && !special) assignments
      if !(← halted) then
        trace before (given ++ fields)
        match fields with
        | [] => modify fun s => { s with status := s.outputStatus }
        | name :: args =>
          if special then runSpecial fuel tested name args else runNamed fuel tested true name args
      if !fields.isEmpty ∧ special = false then takeBack before (assignments.map Prod.fst)
      let keeps := fields = ["exec".toList]
      if keeps = false ∨ (← halted) then restoreStreams before targets
    else
      restoreStreams before targets
      if !(← halted) then
        setStatus 2
        if special then halt (.exit 2)

/-- Carries out assignments. The answer is how they would be written. -/
def assignAll : Nat → Bool → List (List Char × Word) → Work (List (List Char))
  | 0, _, _ => return []
  | _, _, [] => return []
  | fuel + 1, lent, (name, word) :: rest => do
    let value ← expandText fuel word
    if ← halted then return []
    Builtins.assign name value
    if lent then modify fun s => { s with exported := name :: s.exported.filter (· ≠ name) }
    if ← halted then return []
    return (name ++ '=' :: value) :: (← assignAll fuel lent rest)

/-- Runs a special command of the shell. -/
def runSpecial : Nat → Bool → List Char → List (List Char) → Work Unit
  | 0, _, _, _ => return
  | fuel + 1, tested, name, args => do
    let outer := (← get).command
    modify fun s => { s with command := name }
    match String.ofList name, args with
    | "exec", [] => setStatus 0
    | "exec", program :: _ =>
      openUpcoming
      match Builtins.findProgram (← get) program with
      | .error fault =>
        missing program (!program.contains '/') fault
        halt (.exit (← get).status)
      | .ok path =>
        match Image.ofPath (← get).tree (String.ofList path) (args.map String.ofList) with
        | .ok image =>
          modify fun s => { s with traps := s.traps.filter fun entry => decide (entry.2 = []) }
          runImage fuel image
          if !(← halted) then halt (.exit (← get).status)
        | .error .notExecutable =>
          runImage fuel {
            program := "sh"
            argv := "sh" :: String.ofList path :: (args.drop 1).map String.ofList }
          if !(← halted) then halt (.exit (← get).status)
        | .error fault =>
          missing program (!program.contains '/') fault
          halt (.exit (← get).status)
    | "eval", args =>
      let text := List.intercalate [' '] args
      if text.all fun c => c == ' ' then setStatus 0 else runText fuel tested text
    | ".", [] => setStatus 0
    | ".", file :: _ =>
      let s ← get
      let found : Except FileFault (List Char) :=
        if file.contains '/' then .ok file
        else
          ((Text.split ':' (s.value "PATH")).find? fun dir =>
            s.tree.isFile ⟨String.ofList (dir ++ '/' :: file)⟩).elim (.error .notFound)
            fun dir => .ok (dir ++ '/' :: file)
      match found with
      | .error _ => raise (String.ofList file ++ ": not found")
      | .ok path =>
        match s.tree.readBytes ⟨String.ofList path⟩ with
        | .error fault =>
          raise ("cannot open " ++ String.ofList path ++ ": " ++ reasonFor "No such file" fault)
        | .ok bytes =>
          setStatus 0
          modify fun s => { s with command := path }
          runText fuel tested (Text.Utf8.decodeLossy bytes).toList
          modify fun s => { s with flow := if s.flow = some .ret then none else s.flow }
    | text, args =>
      match Builtins.run? text args with
      | some run => run
      | none => setStatus 0
    modify fun s => { s with command := outer }

/-- Runs a function, another command of the shell, or a program. -/
def runNamed : Nat → Bool → Bool → List Char → List (List Char) → Work Unit
  | 0, _, _, _, _ => return
  | fuel + 1, tested, functions, name, args => do
    let s ← get
    match if functions then s.functions.lookup name else none with
    | some (line, body) =>
      set { s with
        args, loops := 0, saved := [], calls := s.calls + 1, lineShift := line - 1 }
      evaluate fuel tested body
      modify fun after =>
        let restored := after.saved.foldl (fun s (name, value) => s.restore name value) after
        { restored with
          args := s.args, loops := s.loops, saved := s.saved, calls := s.calls
          lineShift := s.lineShift
          flow := if after.flow = some .ret then none else after.flow }
    | none =>
      let text := String.ofList name
      match text, args with
      | "command", args =>
        let outer := s.command
        modify fun s => { s with command := name }
        match Builtins.takeFlags "pvV" args with
        | .error c => Builtins.refuse ("Illegal option -" ++ String.singleton c)
        | .ok (flags, names) =>
          modify fun s => { s with command := outer }
          match flags.find? fun c => c != 'p', names with
          | _, [] => setStatus 0
          | some c, names => Builtins.tell (c == 'V') (names.take 1)
          | none, inner :: args =>
            if specialCommands.contains (String.ofList inner) then
              runSpecial fuel tested inner args
            else runNamed fuel tested false inner args
        modify fun s => { s with command := outer }
      | _, _ =>
        match Builtins.run? text args with
        | some run =>
          modify fun s => { s with command := name }
          run
          modify fun after => { after with command := s.command }
        | none => runProgram fuel name args

/-- Runs a program in a child and waits for it. -/
def runProgram : Nat → List Char → List (List Char) → Work Unit
  | 0, _, _ => return
  | fuel + 1, name, args => do
    let s ← get
    match Builtins.findProgram s name with
    | .error fault => missing name (!name.contains '/') fault
    | .ok path =>
      let outer ← enterChild
      openUpcoming
      match Image.ofPath s.tree (String.ofList path) ((name :: args).map String.ofList) with
      | .ok image => runImage fuel image
      | .error .notExecutable =>
        runImage fuel { program := "sh", argv := "sh" :: (path :: args).map String.ofList }
      | .error fault => missing name false fault
      let signal := (← get).outcome.2
      leaveChild outer
      announce signal

/-- Becomes a program. -/
def runImage : Nat → Image → Work Unit
  | 0, _ => return
  | fuel + 1, image => do
    let me := image.argv.headD image.program
    let args := image.argv.drop 1
    if Standard.shells.contains image.program then runShell fuel (image.argv.map String.toList)
    else
      match Program.run? image.program me args, Program.next? image.program me args with
      | some run, _ => setStatus (← run)
      | none, some next =>
        match ← next with
        | .done status => setStatus status
        | .become argv wording =>
          match imageFor (← get) argv with
          | .ok image => runImage fuel image
          | .error fault =>
            Program.warn me (wording ++ ": " ++ reason fault)
            setStatus (Program.failedStart fault)
      | none, none => setStatus 0

/-- Becomes a new shell. -/
def runShell : Nat → List (List Char) → Work Unit
  | 0, _ => return
  | fuel + 1, argv => do
    let call := ShellCall.read {} (argv.drop 1)
    becomeShell (argv.headD ['s', 'h'])
    let _ ← Builtins.readOptions call.flags
    if ← halted then return
    match call.command, call.rest with
    | true, [] => raise "-c requires an argument"
    | true, script :: rest =>
      modify fun s => { s with name := rest.headD s.name, args := rest.drop 1, line := 1 }
      runText fuel false script
    | false, file :: rest =>
      if call.stdin then
        let script ← readInput
        modify fun s => { s with args := file :: rest, line := 1 }
        runText fuel false script
      else
        match (← get).tree.readBytes ⟨String.ofList file⟩ with
        | .ok bytes =>
          modify fun s => { s with name := file, args := rest, line := 1 }
          runText fuel false (Text.Utf8.decodeLossy bytes).toList
        | .error .isDirectory => return
        | .error fault =>
          raise ("cannot open " ++ String.ofList file ++ ": " ++ reasonFor "No such file" fault)
    | false, [] =>
      Builtins.setOption 's' true
      let script ← readInput
      modify fun s => { s with line := 1 }
      runText fuel false script
    finish fuel

/-- Runs the text of a script. -/
def runText : Nat → Bool → List Char → Work Unit
  | 0, _, _ => return
  | fuel + 1, tested, text => do
    runInput fuel tested { rest := text, size := text.length, count := (← get).textCount }

/-- Runs what is left of a script. -/
def runInput : Nat → Bool → Input → Work Unit
  | 0, _, _ => return
  | fuel + 1, tested, input => do
    if input.isDone || (← halted) then return
    match input.next with
    | .error mistake =>
      modify fun s => { s with line := mistake.line, lineShift := 0 }
      raise ("Syntax error: " ++ mistake.message)
    | .ok (script, input) =>
      modify fun s => { s with
        texts := input.texts ++ s.texts, textCount := max s.textCount input.count }
      evaluate fuel tested script
      runInput fuel tested { input with texts := [] }

end

/-- How deep commands may nest. -/
def depth : Nat := 1000000

/-- The performance of a program that is started with variables. -/
def perform (tree : Tree) (named : List (String × String)) (image : Image) : Performance :=
  let values := named.map fun (name, value) => (name.toList, value.toList)
  let run : Work Unit := do
    runImage depth image
    runPending depth
    settleTree
    keepTree
  let s := (run.run { tree, values, exported := values.map Prod.fst }).2
  let leadsTo (output : Output) : Bool := s.held.any fun number =>
    (s.files.lookup number).any fun file => decide (file.channel = .output output)
  let closes := ([Output.out, .err].filter fun output => !leadsTo output).map fun output =>
    ({ time := s.now, act := .close output } : Deed)
  let settled := s.later.mergeSort fun a b => decide (a.time ≤ b.time)
  let (_, afterwards) := settled.foldl (fun (s, trees) aftermath =>
    let s := aftermath.changes.foldl State.applyChange s
    (s, (aftermath.time, s.tree) :: trees)) (s, s.trees)
  let leavesAt := if s.flow = some .stuck then endOfTime else s.now
  { deeds := (s.deeds.reverse.map Prod.snd) ++ (if s.jobsEnd ≤ s.now then closes else [])
    leavesAt
    endsAt := max leavesAt s.jobsEnd
    trees := afterwards.reverse
    code := match s.outcome with
      | (_, some _) => none
      | (code, none) => some (Int.ofNat code) }

end InlineRepl.Rehearsal.Shell
