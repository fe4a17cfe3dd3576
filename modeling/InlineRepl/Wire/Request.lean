import InlineRepl.Wire.Position

/-!
# Requests

What travels between host and bridge besides responses: the greeting a bridge sends when it has
connected, and the request to evaluate code on behalf of a document.
-/

namespace InlineRepl

open Json (Raw Record)

/-- The first record a bridge sends: the session it serves. -/
structure Hello where
  session : SessionId
  deriving Repr, DecidableEq

namespace Hello

def toJson (hello : Hello) : Json :=
  .obj [("session", hello.session.toJson)]

def ofRaw? (r : Raw) : Option Hello := do
  let record ← Record.ofRaw ["session"] r
  let session ← record.required "session" SessionId.ofRaw?
  return { session }

end Hello

/-- Code to evaluate and where it stands. `caret` is set when one expression is asked for,
`selection` when a block is; a whole document carries neither. -/
structure EvalInfo where
  path : Option String := none
  name : Option String := none
  code : String := ""
  caret : Option Cursor := none
  selection : Option LineRange := none
  deriving Repr, DecidableEq

namespace EvalInfo

def toJson (info : EvalInfo) : Json :=
  .obj (Json.present
    [("path", info.path.map Json.str), ("name", info.name.map Json.str),
      ("code", some (.str info.code)), ("pos", info.caret.map Cursor.toJson),
      ("meta", info.selection.map LineRange.toJson)])

def ofRaw? (r : Raw) : Option EvalInfo := do
  let record ← Record.ofRaw ["path", "name", "code", "pos", "meta"] r
  let path ← record.optional "path" Raw.text?
  let name ← record.optional "name" Raw.text?
  let code ← record.required "code" Raw.text?
  let caret ← record.optional "pos" Cursor.ofRaw?
  let selection ← record.optional "meta" LineRange.ofRaw?
  return { path, name, code, caret, selection }

end EvalInfo

/-- A request to evaluate `info` on behalf of `origin`. -/
structure EvalRequest where
  command : String
  origin : DocumentId
  info : EvalInfo
  deriving Repr, DecidableEq

namespace EvalRequest

/-- The command of every evaluation request. -/
def evalCommand : String := "editor.eval.fsharp"

/-- The request to evaluate `info`. -/
def eval (origin : DocumentId) (info : EvalInfo) : EvalRequest :=
  { command := evalCommand, origin, info }

def toJson (request : EvalRequest) : Json :=
  .obj [("command", .str request.command), ("origin", request.origin.toJson),
    ("info", request.info.toJson)]

def ofRaw? (r : Raw) : Option EvalRequest := do
  let record ← Record.ofRaw ["command", "origin", "info"] r
  let command ← record.required "command" Raw.text?
  let origin ← record.required "origin" DocumentId.ofRaw?
  let info ← record.required "info" EvalInfo.ofRaw?
  return { command, origin, info }

end EvalRequest

end InlineRepl
