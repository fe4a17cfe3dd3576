import InlineRepl.Command.Fault
import InlineRepl.Document.Evaluation
import InlineRepl.Invocation.Basic
import InlineRepl.Tree.Basic

/-!
# Loading a script

A script is read from its file, then the watches and the line options are checked against it and
applied: every watch has to lie inside the document and apart from the others, the line has to be
inside, and so has the block, which may not be inverted.
-/

namespace InlineRepl.Script

/-- The document of a run. There is only one. -/
def documentId : DocumentId := ⟨1⟩

/-- Reads the script. A file that is not there is named as it was given, any other by its full
path. -/
def read (tree : Tree) (file : Path) : Except CommandFault Document :=
  match tree.canonical file with
  | .error _ => .error (.document file)
  | .ok path =>
    match tree.readText path with
    | .error _ => .error (.document path)
    | .ok text => .ok { Document.ofText documentId text with path := some path }

/-- Places watches in order. -/
def placeWatches (doc : Document) : List LineRange → Except CommandFault Document
  | [] => .ok doc
  | range :: ranges =>
    if doc.lineCount ≤ range.stop then .error (.invalidWatch (range.start + 1) (range.stop + 1))
    else
      match doc.addWatch range with
      | none => .error (.invalidWatch (range.start + 1) (range.stop + 1))
      | some (_, doc) => placeWatches doc ranges

/-- Refuses a line that the document does not have. -/
def checkLine (doc : Document) (line : UInt32) : Except CommandFault Unit :=
  if line < doc.lineCount then .ok () else .error (.lineOutOfRange (line + 1) (doc.lineCount))

/-- Applies the line options. -/
def applyLines (doc : Document) (args : EvalArgs) : Except CommandFault (Document × Scope) :=
  match args.line, args.block with
  | some line, _ => do
    checkLine doc line
    return (doc.setCursor { line, column := 0 }, .one)
  | none, some block =>
    if block.stop < block.start then
      .error (.invertedBlock (block.start + 1) (block.stop + 1))
    else do
      checkLine doc block.stop
      return (doc.select block, .one)
  | none, none => .ok (doc, .document)

/-- Loads the script of a run, and says which part of it to evaluate. -/
def load (tree : Tree) (args : EvalArgs) : Except CommandFault (Document × Scope) := do
  let doc ← read tree args.file
  let doc ← placeWatches doc args.watches
  applyLines doc args

end InlineRepl.Script
