import InlineRepl.Text.Lines
import InlineRepl.Text.Utf8

/-!
# Paths

A path is a text: the system also has paths whose bytes are not UTF-8, and none of these is a
`Path`. What a path names is the list of its components. Repeated slashes, a slash at the end and a
dot after the first place do not count, two dots do. `Path.parent?` cuts the text behind the last
component but one, so that nothing before it is respelled.
-/

namespace InlineRepl

/-- A path as it is spelled. -/
structure Path where
  text : String
  deriving Repr, DecidableEq

namespace Path

/-- A path as the system has it. -/
def bytes (p : Path) : List UInt8 :=
  Text.bytesOf p.text

/-- A step of a path. -/
inductive Component where
  | root
  /-- A dot that begins the path. -/
  | here
  /-- Two dots. -/
  | up
  | name (n : String)
  deriving Repr, DecidableEq

/-- The component that a piece between slashes spells, if it spells one. -/
def component? (leading : Bool) (piece : List Char) : Option Component :=
  if piece = [] then none
  else if piece = ['.'] then (if leading then some .here else none)
  else if piece = ['.', '.'] then some .up
  else some (.name (String.ofList piece))

/-- The components of pieces that begin at offset `start`, each with the offset of its end. -/
def spansFrom (start : Nat) (leading : Bool) : List (List Char) → List (Component × Nat)
  | [] => []
  | piece :: pieces =>
    let stop := start + piece.length
    let rest := spansFrom (stop + 1) false pieces
    match component? leading piece with
    | some component => (component, stop) :: rest
    | none => rest

/-- The components of a path, each with the offset of its end. -/
def spans (p : Path) : List (Component × Nat) :=
  match p.text.toList with
  | '/' :: rest => (.root, 1) :: spansFrom 1 false (Text.split '/' rest)
  | cs => spansFrom 0 true (Text.split '/' cs)

/-- The components of a path. -/
def components (p : Path) : List Component :=
  p.spans.map Prod.fst

/-- Two spellings of the same components. -/
def same (p q : Path) : Bool :=
  decide (p.components = q.components)

/-- The empty path. -/
def isEmpty (p : Path) : Bool :=
  p.text == ""

/-- The path begins at the root. -/
def isAbsolute (p : Path) : Bool :=
  p.text.toList.head? == some '/'

/-- The path up to its last component but one. The empty path and the root have none. -/
def parent? (p : Path) : Option Path :=
  match p.spans.reverse with
  | [] => none
  | [(.root, _)] => none
  | [_] => some ⟨""⟩
  | _ :: (_, stop) :: _ => some ⟨String.ofList (p.text.toList.take stop)⟩

/-- The last component, if it is a name. -/
def fileName? (p : Path) : Option String :=
  match p.components.getLast? with
  | some (.name n) => some n
  | _ => none

/-- The path `q` seen from `p`. -/
def join (p q : Path) : Path :=
  if q.isAbsolute then q
  else if p.isEmpty ∨ p.text.toList.getLast? = some '/' then ⟨p.text ++ q.text⟩
  else ⟨p.text ++ "/" ++ q.text⟩

/-- The last component of a path, or the whole text where there is no name at its end. -/
def baseName (text : String) : String :=
  (Path.mk text).fileName?.getD text

end Path

end InlineRepl
