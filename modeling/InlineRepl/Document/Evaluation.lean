import InlineRepl.Document.Basic
import InlineRepl.Wire.Request

/-!
# Evaluations

An evaluation is taken off its document before it is sent: the code with its watches wrapped, and
the positions the bridge needs to report back.
-/

namespace InlineRepl

/-- Which part of a document to evaluate. -/
inductive Scope where
  /-- All of its text. -/
  | document
  /-- The selection, or the expression at the caret. -/
  | one
  deriving Repr, DecidableEq

/-- An evaluation that no longer needs its document. -/
structure Evaluation where
  origin : DocumentId
  path : Option Path
  info : EvalInfo
  deriving Repr, DecidableEq

namespace Evaluation

/-- The evaluation of part of a document. A selection is sent as it stands; everything else is sent
with its watches wrapped. -/
def ofDocument (doc : Document) (scope : Scope) : Evaluation :=
  let base : EvalInfo := { path := doc.path.map Path.text, name := doc.name }
  let info :=
    match scope, doc.selection with
    | .document, _ => { base with code := doc.watchedText none none WatchTag.wrap }
    | .one, some range => { base with code := doc.selectionText, selection := some range }
    | .one, none =>
      { base with caret := some doc.cursor, code := doc.watchedText none none WatchTag.wrap }
  { origin := doc.id, path := doc.path, info }

/-- The request that the bridge is sent. -/
def request (evaluation : Evaluation) : EvalRequest :=
  EvalRequest.eval evaluation.origin evaluation.info

end Evaluation

end InlineRepl
