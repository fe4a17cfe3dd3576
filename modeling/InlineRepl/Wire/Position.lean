import InlineRepl.Json.Basic
import InlineRepl.Json.Record

/-!
# Identifiers and positions

Sessions and documents are numbered, watches are named. Lines count from zero. A `LineRange`
includes both its ends and promises no order of them; a `Placement` is the range a response belongs
to, with the watch that produced it, if one did.
-/

namespace InlineRepl

open Json (Raw Record)

/-! ## Identifiers -/

/-- Identifies one interpreter session. -/
structure SessionId where
  val : UInt64
  deriving Repr, DecidableEq

/-- Identifies the document an evaluation started from. -/
structure DocumentId where
  val : UInt64
  deriving Repr, DecidableEq

/-- Identifies a watch placed on a block of a document. -/
structure WatchId where
  name : String
  deriving Repr, DecidableEq

/-- The digits of a session's number. -/
def SessionId.display (id : SessionId) : String :=
  toString id.val.toNat

/-- A document's number as shown to people. -/
def DocumentId.display (id : DocumentId) : String :=
  "doc-" ++ toString id.val.toNat

def SessionId.toJson (id : SessionId) : Json := .nat id.val.toNat
def DocumentId.toJson (id : DocumentId) : Json := .nat id.val.toNat
def WatchId.toJson (id : WatchId) : Json := .str id.name

def SessionId.ofRaw? (r : Raw) : Option SessionId := r.word64?.map SessionId.mk
def DocumentId.ofRaw? (r : Raw) : Option DocumentId := r.word64?.map DocumentId.mk
def WatchId.ofRaw? (r : Raw) : Option WatchId := r.text?.map WatchId.mk

/-! ## Positions -/

/-- A caret position. -/
structure Cursor where
  line : UInt32 := 0
  column : UInt32 := 0
  deriving Repr, DecidableEq

/-- The lines from `start` to `stop`, both included. -/
structure LineRange where
  start : UInt32
  stop : UInt32
  deriving Repr, DecidableEq

/-- The line is one of the range. -/
def LineRange.contains (range : LineRange) (line : UInt32) : Bool :=
  decide (range.start ≤ line) && decide (line ≤ range.stop)

/-- The lines a response belongs to, and the watch it speaks for. -/
structure Placement where
  start : UInt32
  stop : UInt32
  watch : Option WatchId := none
  deriving Repr, DecidableEq

/-- The range of a placement. -/
def Placement.range (place : Placement) : LineRange :=
  { start := place.start, stop := place.stop }

/-- A range as the placement of a response that no watch produced. -/
def Placement.ofRange (range : LineRange) : Placement :=
  { start := range.start, stop := range.stop }

namespace Cursor

def toJson (cursor : Cursor) : Json :=
  .obj [("line", .nat cursor.line.toNat), ("ch", .nat cursor.column.toNat)]

def ofRaw? (r : Raw) : Option Cursor := do
  let record ← Record.ofRaw ["line", "ch"] r
  let line ← record.required "line" Raw.word32?
  let column ← record.defaulted "ch" 0 Raw.word32?
  return { line, column }

end Cursor

namespace LineRange

def toJson (range : LineRange) : Json :=
  .obj [("start", .nat range.start.toNat), ("end", .nat range.stop.toNat)]

def ofRaw? (r : Raw) : Option LineRange := do
  let record ← Record.ofRaw ["start", "end"] r
  let start ← record.required "start" Raw.word32?
  let stop ← record.required "end" Raw.word32?
  return { start, stop }

end LineRange

namespace Placement

def toJson (place : Placement) : Json :=
  .obj (Json.present
    [("start", some (.nat place.start.toNat)), ("end", some (.nat place.stop.toNat)),
      ("id", place.watch.map WatchId.toJson)])

def ofRaw? (r : Raw) : Option Placement := do
  let record ← Record.ofRaw ["start", "end", "id"] r
  let start ← record.required "start" Raw.word32?
  let stop ← record.required "end" Raw.word32?
  let watch ← record.optional "id" WatchId.ofRaw?
  return { start, stop, watch }

end Placement

end InlineRepl
