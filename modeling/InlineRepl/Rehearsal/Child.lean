import InlineRepl.Process.Launch
import InlineRepl.Rehearsal.Shell.Run
import InlineRepl.Session.Fault

/-!
# Rehearsed processes

What becomes of a process that would be started in a directory tree: the fault that the system would
report, or the performance of the program.
-/

namespace InlineRepl.Rehearsal.Child

/-- The directory tree as a process finds it that is started in a directory. -/
def within (tree : Tree) (cwd : Path) : Except FileFault Tree :=
  match tree.resolve true cwd with
  | .error fault => .error fault
  | .ok place =>
    match tree.at? place with
    | none => .error .notFound
    | some .directory => .ok { tree with cwd := place }
    | some _ => .error .notDirectory

/-- The performance of a process, or the fault that keeps it from starting. The directory is entered
before the program is looked up. -/
def start (tree : Tree) (named : List (String × String)) (spec : LaunchSpec) :
    Except FileFault Performance :=
  match within tree spec.cwd with
  | .error fault => .error fault
  | .ok tree =>
    let path := (named.lookup "PATH").getD Standard.barePath
    match Image.locate tree path spec.program (spec.program :: spec.args) with
    | .error fault => .error fault
    | .ok image => .ok (Shell.perform tree named image)

/-- A text that no process can be given. -/
def hasNul (spec : LaunchSpec) : Bool :=
  (spec.program :: spec.cwd.text :: spec.args).any fun text => text.toList.contains '\x00'

/-- The performance of a process that is started with variables, or why it cannot be launched. -/
def launch (tree : Tree) (named : List (String × String)) (spec : LaunchSpec) :
    Except SessionFault Performance :=
  let refuse (reason : String) : Except SessionFault Performance :=
    .error (.launchFailed ("failed to spawn " ++ spec.program ++ ": " ++ reason))
  if hasNul spec then refuse "nul byte found in provided data"
  else
    match start tree named spec with
    | .ok performance => .ok performance
    | .error fault => refuse fault.message

end InlineRepl.Rehearsal.Child
