import InlineRepl.Path
import InlineRepl.Text.Lines
import InlineRepl.Text.Utf8

/-!
# Directory trees

A directory tree as a value: a flat table from the names on the way from the root to what stands
there. Walking a path follows links, at most `Tree.linkLimit` of them, and reports the fault that
the system would.
-/

namespace InlineRepl

/-- Why an operation on files failed. -/
inductive FileFault where
  | notFound
  | permissionDenied
  | alreadyExists
  | notDirectory
  | isDirectory
  | tooManyLinks
  | nameTooLong
  | notExecutable
  /-- A program is given more than it can be given. -/
  | argumentsTooLong
  /-- The path holds a character that no path may hold. -/
  | badPath
  /-- The bytes of the file are no text. -/
  | notText
  deriving Repr, DecidableEq

/-- The wording of a fault. -/
def FileFault.message : FileFault → String
  | notFound => "No such file or directory (os error 2)"
  | permissionDenied => "Permission denied (os error 13)"
  | alreadyExists => "File exists (os error 17)"
  | notDirectory => "Not a directory (os error 20)"
  | isDirectory => "Is a directory (os error 21)"
  | tooManyLinks => "Too many levels of symbolic links (os error 40)"
  | nameTooLong => "File name too long (os error 36)"
  | notExecutable => "Exec format error (os error 8)"
  | argumentsTooLong => "Argument list too long (os error 7)"
  | badPath => "file name contained an unexpected NUL byte"
  | notText => "stream did not contain valid UTF-8"

/-- What stands at a place of the tree. -/
inductive Entry where
  | file (bytes : List UInt8) (executable : Bool)
  | directory
  | link (target : Path)
  /-- Nothing can be read from it, and what is written to it is lost. -/
  | device
  deriving Repr, DecidableEq

/-- The names on the way from the root to an entry. -/
abbrev Place := List String

/-- A directory tree. The root is a directory without an entry of its own. -/
structure Tree where
  entries : List (Place × Entry) := []
  /-- Where relative paths begin. -/
  cwd : Place := []
  deriving Repr, DecidableEq

namespace Tree

/-- What stands at a place. -/
def at? (tree : Tree) : Place → Option Entry
  | [] => some .directory
  | place => tree.entries.lookup place

/-- A place is a directory, not counting links to one. -/
def directoryAt (tree : Tree) (place : Place) : Bool :=
  match tree.at? place with
  | some .directory => true
  | _ => false

/-- The steps that a path spells: its names and dots. A slash at the end asks for a directory,
which a dot does too. -/
def steps (p : Path) : List String :=
  let cs := p.text.toList
  ((Text.split '/' cs).filter fun piece => decide (piece ≠ [])).map String.ofList ++
    (if cs.getLast? = some '/' then ["."] else [])

/-- The most links that one walk follows. -/
def linkLimit : Nat := 40

/-- The most bytes in a name. -/
def nameLimit : Nat := 255

/-- Walks from a place along steps. The last name need not exist; a link at the end is followed
only if `follow` says so. -/
def walk (tree : Tree) (follow : Bool) (links : Nat) (place : Place) :
    List String → Except FileFault Place
  | [] => .ok place
  | step :: rest =>
    if tree.directoryAt place = false then .error .notDirectory
    else if step = "." then walk tree follow links place rest
    else if step = ".." then walk tree follow links place.dropLast rest
    else if nameLimit < step.utf8ByteSize then .error .nameTooLong
    else
      match tree.at? (place ++ [step]) with
      | none => if rest.isEmpty then .ok (place ++ [step]) else .error .notFound
      | some (.link target) =>
        if rest.isEmpty ∧ follow = false then .ok (place ++ [step])
        else
          match links with
          | 0 => .error .tooManyLinks
          | links + 1 =>
            walk tree follow links (if target.isAbsolute then [] else place) (steps target ++ rest)
      | some _ => walk tree follow links (place ++ [step]) rest
termination_by todo => (links, todo.length)

/-- The most bytes in a path that is handed to the system. -/
def pathLimit : Nat := 4095

/-- The place that a path names, however long it is spelled. -/
def resolveSpelled (tree : Tree) (follow : Bool) (p : Path) : Except FileFault Place :=
  if p.text.toList.contains '\x00' then .error .badPath
  else if p.isEmpty then .error .notFound
  else tree.walk follow linkLimit (if p.isAbsolute then [] else tree.cwd) (steps p)

/-- The place that a path names, whether or not anything stands there. -/
def resolve (tree : Tree) (follow : Bool) (p : Path) : Except FileFault Place :=
  if p.text.toList.contains '\x00' then .error .badPath
  else if pathLimit < p.text.utf8ByteSize then .error .nameTooLong
  else tree.resolveSpelled follow p

/-- What stands at the end of a path, links followed. -/
def find (tree : Tree) (p : Path) : Except FileFault Entry := do
  let place ← tree.resolve true p
  match tree.at? place with
  | some entry => return entry
  | none => throw .notFound

/-! ## Asking -/

/-- The path names a directory. -/
def isDirectory (tree : Tree) (p : Path) : Bool :=
  match tree.find p with
  | .ok .directory => true
  | _ => false

/-- The path names a file. -/
def isFile (tree : Tree) (p : Path) : Bool :=
  match tree.find p with
  | .ok (.file ..) => true
  | _ => false

/-- The path names a file that may be executed. -/
def isExecutable (tree : Tree) (p : Path) : Bool :=
  match tree.find p with
  | .ok (.file _ executable) => executable
  | _ => false

/-- Something stands at the end of the path. -/
def hasPath (tree : Tree) (p : Path) : Bool :=
  (tree.find p).isOk

/-- The bytes of a file. -/
def readBytes (tree : Tree) (p : Path) : Except FileFault (List UInt8) := do
  match ← tree.find p with
  | .file bytes _ => return bytes
  | .directory => throw .isDirectory
  | .link _ => throw .notFound
  | .device => return []

/-- The text of a file. -/
def readText (tree : Tree) (p : Path) : Except FileFault String := do
  match Text.Utf8.decode? (← tree.readBytes p) with
  | some text => return text
  | none => throw .notText

/-- The path of a place from the root. -/
def pathOf (place : Place) : Path :=
  match place with
  | [] => ⟨"/"⟩
  | place => ⟨String.join (place.map fun name => "/" ++ name)⟩

/-- The path from the root, without links and dots, of something that exists. It is found name by
name, so only names are bounded. -/
def canonical (tree : Tree) (p : Path) : Except FileFault Path := do
  let place ← tree.resolveSpelled true p
  match tree.at? place with
  | some _ => return pathOf place
  | none => throw .notFound

end Tree

end InlineRepl
