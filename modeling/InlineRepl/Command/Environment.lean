import InlineRepl.Command.Fault
import InlineRepl.Command.Moment
import InlineRepl.Host.Run
import InlineRepl.Settings.Store
import InlineRepl.Terminal

/-!
# What a command finds around it, and how it ends

The environment of a run is a value: the files, the variables that matter, what the system answers
when it is asked for a program, a directory or a port, and what becomes of a process that is
started. The outcome of a run is the text it writes, the files it leaves, and how it ended.
-/

namespace InlineRepl

/-- What a run of the program finds. -/
structure Environment where
  tree : Tree
  /-- The current directory, if it can be told. -/
  currentDir : Option Path := some (Tree.pathOf tree.cwd)
  /-- Looks the interpreter up, on the environment's own search path unless another one is given. -/
  lookup : Option String → Option Path := fun _ => none
  home : Option Path := none
  /-- The configuration directory that the environment names. -/
  configHome : Option Path := none
  /-- The user's configuration directory by the conventions of the system. -/
  configDir : Option Path := none
  /-- The user's data directory by the conventions of the system. -/
  dataDir : Option Path := none
  /-- The bridge script that the environment names. -/
  bridge : Option Path := none
  /-- The directory of the running program. -/
  programDir : Option Path := none
  /-- Output goes to a terminal that shows styles. -/
  color : Bool := false
  /-- The port that the control channel is given, or why it is given none. -/
  control : Except String UInt16 := .ok 0
  /-- How many seconds the clock has counted. -/
  uptime : Nat := 1
  /-- Starts a process, or says why it cannot be started. -/
  launch : SessionId → LaunchSpec → Except SessionFault (Option Nat)
  /-- What a process does to its session, and at which millisecond after its start. -/
  story : LaunchSpec → List (Nat × Happening)
  /-- The directory tree that a process has left behind at a millisecond after its start, unless it
  does not change anything. -/
  leaves : LaunchSpec → Nat → Option Tree

namespace Environment

/-- The data directory by the usual conventions: the one that is named, if its path begins at the
root, or else the one below the home directory. -/
def dataDirOf (named home : Option Path) : Option Path :=
  (named.filter Path.isAbsolute).or
    ((home.filter fun home => !home.isEmpty).map fun home => home.join ⟨".local/share"⟩)

/-- The environment that variables describe, where no process can be started. -/
def ofVariables (tree : Tree) (programDir : Option Path) (named : List (String × String)) :
    Environment :=
  let home := (named.lookup "HOME").map Path.mk
  { tree
    lookup := fun searchPath =>
      SearchPath.find tree.view home (searchPath.getD ((named.lookup "PATH").getD ""))
        interpreterCommand
    home
    configHome := (named.lookup "XDG_CONFIG_HOME").map Path.mk
    dataDir := dataDirOf ((named.lookup "XDG_DATA_HOME").map Path.mk) home
    bridge := (named.lookup "FSI_BRIDGE_SCRIPT").map Path.mk
    programDir
    color := Text.showsStyles (named.lookup "CLICOLOR_FORCE") (named.lookup "NO_COLOR") false
    launch := fun _ spec => .error (.launchFailed ("failed to spawn " ++ spec.program))
    story := fun _ => []
    leaves := fun _ _ => none }

/-- Where bridge scripts are looked for. -/
def bridgePlaces (env : Environment) : BridgePlaces :=
  { named := env.bridge, programDir := env.programDir, dataDir := env.dataDir }

/-- What a host of this run asks of its surroundings. Nothing can be saved. -/
def around (env : Environment) : Surroundings :=
  { files := env.tree.view
    lookup := env.lookup
    bridgePlaces := env.bridgePlaces
    launch := env.launch
    save := fun _ => none }

/-- The host of a run that keeps its settings in a file, if its control channel is given a port. -/
def startHost (env : Environment) (store : Path) : Except SessionFault Host :=
  match env.control with
  | .ok port => .ok (Host.start (Settings.load env.tree store) (some store) none port)
  | .error reason => .error (.io reason)

/-- The processes that have been started for registered sessions. -/
def running (host : Host) : List (SessionId × LaunchSpec) :=
  host.calls.filterMap fun
    | .launch session spec =>
      if host.registry.contains session then some (session, spec) else none
    | _ => none

/-- The moments that a command meets which waits for what has just been started, with their times.
-/
def moments (env : Environment) (host : Host) (patience limit : Nat) : List (Nat × Moment) :=
  Moment.schedule patience limit 0
    ((running host).flatMap fun started =>
      (env.story started.2).map fun entry =>
        (entry.1, { session := started.1, happening := entry.2 }))

/-- The directory tree at a time after the start of what has just been started. -/
def treeAt (env : Environment) (host : Host) (time : Nat) : Tree :=
  match (running host).findSome? fun started => env.leaves started.2 time with
  | some tree => { tree with cwd := env.tree.cwd }
  | none => env.tree

/-- The first second that the clock cannot count. -/
def clockEnd : Nat := Nat.pow 2 63

/-- A limit of so many seconds from now lies where the clock can count. -/
def reaches (env : Environment) (seconds : UInt64) : Bool :=
  decide (env.uptime + seconds.toNat < clockEnd)

end Environment

/-- How a command ended. -/
inductive Ending where
  | done
  | failed (fault : CommandFault)
  /-- Its limit lies where the clock cannot count, which it does not survive. -/
  | overflow
  /-- It has not ended: it waits for more than the story holds. -/
  | waiting
  deriving Repr, DecidableEq

/-- What a run leaves behind. -/
structure Outcome where
  ending : Ending
  /-- The text on standard output. -/
  out : String := ""
  /-- The text on standard error. -/
  err : String := ""
  tree : Tree

/-- How a host appears to its user. -/
structure Screen where
  /-- Prints are shown as they arrive. -/
  echo : Bool
  color : Bool
  deriving Repr, DecidableEq

/-- The terminal of a host: it has heard everything the host has said. -/
def Screen.terminal (screen : Screen) (host : Host) : Terminal :=
  Terminal.ofCalls screen.echo screen.color host.calls

/-- A limit as it is reported: one second at least. -/
def shownLimit (seconds : UInt64) : UInt64 :=
  max seconds 1

/-- A command that fails before it has done anything. -/
def Outcome.ofFault (tree : Tree) (fault : CommandFault) : Outcome :=
  { ending := .failed fault, tree }

/-- A command that ends with what is on its terminal. -/
def Outcome.ofTerminal (terminal : Terminal) (tree : Tree) (ending : Ending) : Outcome :=
  { ending, out := terminal.out, err := terminal.err, tree }

end InlineRepl
