import InlineRepl.Tree.Basic

/-!
# Changing a directory tree

Making directories, writing and removing files, with the faults that the system reports.
-/

namespace InlineRepl.Tree

/-- Puts an entry at a place, in place of what stood there. -/
def put (tree : Tree) (place : Place) (entry : Entry) : Tree :=
  { tree with entries := (place, entry) :: tree.entries.filter fun e => decide (e.1 ≠ place) }

/-- A path without the slashes at its end, unless it is the root. -/
def withoutSlash (p : Path) : Path :=
  match (p.text.toList.reverse.dropWhile (· == '/')).reverse with
  | [] => p
  | cs => ⟨String.ofList cs⟩

/-- Makes one directory. -/
def makeDirectory (tree : Tree) (p : Path) : Except FileFault Tree := do
  let place ← tree.resolve false (withoutSlash p)
  match tree.at? place with
  | some _ => throw .alreadyExists
  | none => return tree.put place .directory

/-- Makes a directory and those above it that are missing. The fuel bounds the directories above. -/
def makeAllFrom (tree : Tree) : Nat → Path → Except FileFault Tree
  | 0, _ => .error .notFound
  | fuel + 1, p =>
    if p.isEmpty then .ok tree
    else
      match tree.makeDirectory p with
      | .ok tree => .ok tree
      | .error .notFound =>
        match p.parent? with
        | none => .error .notFound
        | some up =>
          match makeAllFrom tree fuel up with
          | .error fault => .error fault
          | .ok tree =>
            match tree.makeDirectory p with
            | .ok tree => .ok tree
            | .error fault => if tree.isDirectory p then .ok tree else .error fault
      | .error fault => if tree.isDirectory p then .ok tree else .error fault

/-- Makes a directory and those above it that are missing. One that exists already is fine. -/
def makeAll (tree : Tree) (p : Path) : Except FileFault Tree :=
  tree.makeAllFrom (p.components.length + 1) p

/-- Writes a file, in place of the one that stood there. It keeps its permission to be executed. -/
def writeBytes (tree : Tree) (p : Path) (bytes : List UInt8) : Except FileFault Tree := do
  let place ← tree.resolve true p
  match tree.at? place with
  | some .directory => throw .isDirectory
  | some (.file _ executable) => return tree.put place (.file bytes executable)
  | some (.link _) => throw .tooManyLinks
  | some .device => return tree
  | none => return tree.put place (.file bytes false)

/-- Writes a text file. -/
def writeText (tree : Tree) (p : Path) (text : String) : Except FileFault Tree :=
  tree.writeBytes p (Text.bytesOf text)

/-- Writes a file and makes the directories above it that are missing. -/
def plant (tree : Tree) (p : Path) (bytes : List UInt8) : Tree :=
  match (p.parent?.map tree.makeAll).getD (.ok tree) with
  | .error _ => tree
  | .ok tree =>
    match tree.writeBytes p bytes with
    | .ok tree => tree
    | .error _ => tree

/-- Puts a link at a path. -/
def plantLink (tree : Tree) (p target : Path) : Tree :=
  match (p.parent?.map tree.makeAll).getD (.ok tree) with
  | .error _ => tree
  | .ok tree =>
    match tree.resolve false p with
    | .ok place => tree.put place (.link target)
    | .error _ => tree

/-- Allows a file to be executed. -/
def allowExecution (tree : Tree) (p : Path) : Tree :=
  match tree.resolve true p with
  | .error _ => tree
  | .ok place =>
    match tree.at? place with
    | some (.file bytes _) => tree.put place (.file bytes true)
    | _ => tree

/-- Removes what stands at a path, with everything below it. -/
def remove (tree : Tree) (p : Path) : Tree :=
  match tree.resolve false (withoutSlash p) with
  | .error _ => tree
  | .ok place =>
    { tree with entries := tree.entries.filter fun e => !place.isPrefixOf e.1 }

end InlineRepl.Tree
