import InlineRepl.Rehearsal.Program.Basic
import InlineRepl.Rehearsal.Shell.Pattern

/-!
# Programs for files

Programs that name, make and remove what stands in the directory tree.
-/

namespace InlineRepl.Rehearsal.Program

open Shell

/-- Changes the directory tree, or complains. -/
def change (me wording : String) (f : Tree → Except FileFault Tree) : Work Nat := do
  let s ← get
  match f s.tree with
  | .ok tree =>
    set { s with tree }
    return 0
  | .error fault =>
    warn me (wording ++ ": " ++ reason fault)
    return 1

/-- The names in a directory that are shown, in order, a line for each. -/
def listing (all : Bool) (tree : Tree) (place : Place) : String :=
  let names := (namesIn tree place).filter fun name => all || !name.startsWith "."
  let names := (if all then [".", ".."] else []) ++ names
  String.join ((names.mergeSort fun a b => decide (a ≤ b)).map (· ++ "\n"))

/-- Names what is in directories. -/
def ls (me : String) (args : List String) : Work Nat :=
  withCallOr 2 me (.of "1a") args fun call => do
    let tree := (← get).tree
    let files := if call.operands.isEmpty then ["."] else call.operands
    let look (file : String) : Except FileFault (Place × Bool) := do
      let place ← tree.resolve true ⟨file⟩
      match tree.at? place with
      | some entry => return (place, decide (entry = .directory))
      | none => .error .notFound
    let status ← forEach files fun file =>
      match look file with
      | .ok _ => return 0
      | .error fault => do
        warn me ("cannot access " ++ quoted file ++ ": " ++ reason fault)
        return 2
    let found := (files.mergeSort fun a b => decide (a ≤ b)).filterMap fun file =>
      (look file).toOption.map fun entry => (file, entry)
    let plain := found.filter fun entry => !entry.2.2
    let texts := (found.filter fun entry => entry.2.2).map fun (dir, place, _) =>
      (if 1 < files.length then dir ++ ":\n" else "") ++ listing (call.has 'a') tree place
    let texts := if plain.isEmpty then texts
      else String.join (plain.map fun entry => entry.1 ++ "\n") :: texts
    return max status (← putText me (String.intercalate "\n" texts))

/-- Makes directories. -/
def mkdir (me : String) (args : List String) : Work Nat :=
  withCall me (.of "p") args fun call =>
    forOperands me call.operands fun dir =>
      change me ("cannot create directory " ++ quoted dir) fun tree =>
        if call.has 'p' then tree.makeAll ⟨dir⟩ else tree.makeDirectory ⟨dir⟩

/-- Removes files. -/
def rm (me : String) (args : List String) : Work Nat :=
  withCall me (.of "rf") args fun call =>
    if call.operands.isEmpty ∧ call.has 'f' then return 0
    else
      forOperands me call.operands fun file =>
        change me ("cannot remove " ++ quoted file) fun tree => do
          match tree.resolve false ⟨file⟩ with
          | .error fault => if call.has 'f' then return tree else throw fault
          | .ok place =>
            match tree.at? place with
            | none => if call.has 'f' then return tree else throw .notFound
            | some .directory =>
              if call.has 'r' then return tree.remove ⟨file⟩ else throw .isDirectory
            | some _ => return tree.remove ⟨file⟩

/-- Makes files that are missing. -/
def touch (me : String) (args : List String) : Work Nat :=
  withCall me (.of "c") args fun call =>
    forOperands me call.operands fun file =>
      change me ("cannot touch " ++ quoted file) fun tree =>
        if tree.hasPath ⟨file⟩ ∨ call.has 'c' then .ok tree else tree.writeBytes ⟨file⟩ []

end InlineRepl.Rehearsal.Program
