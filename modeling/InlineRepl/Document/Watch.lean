import InlineRepl.Wire.Position

/-!
# Watched blocks

A watched block is sent to the interpreter inside a call of the bridge's watch entry, together with
a `WatchTag` as a string literal: its id, its document and its lines. The bridge hands the tag back
as the placement of the response, so no other channel is needed to find the block again.
-/

namespace InlineRepl

open Json (Raw Record)

/-- A watched block of a document. -/
structure Watch where
  id : WatchId
  range : LineRange
  deriving Repr, DecidableEq

/-- What travels with a watched block: who it is and where it came from. -/
structure WatchTag where
  id : WatchId
  origin : DocumentId
  start : UInt32
  stop : UInt32
  deriving Repr, DecidableEq

namespace WatchTag

/-- The tag of a watch in a document. -/
def ofWatch (origin : DocumentId) (watch : Watch) : WatchTag :=
  { id := watch.id, origin, start := watch.range.start, stop := watch.range.stop }

/-- The lines of the block. -/
def range (tag : WatchTag) : LineRange :=
  { start := tag.start, stop := tag.stop }

/-- The record of a tag, its fields in declaration order. -/
def toJson (tag : WatchTag) : Json :=
  .obj [("id", tag.id.toJson), ("origin", tag.origin.toJson),
    ("start", .nat tag.start.toNat), ("end", .nat tag.stop.toNat)]

/-- The record handed to the bridge, its fields in alphabetical order. -/
def toBridgeJson (tag : WatchTag) : Json :=
  .obj [("end", .nat tag.stop.toNat), ("id", tag.id.toJson), ("origin", tag.origin.toJson),
    ("start", .nat tag.start.toNat)]

/-- The text handed to the bridge. -/
def bridgeText (tag : WatchTag) : String :=
  tag.toBridgeJson.compact

def ofRaw? (r : Raw) : Option WatchTag := do
  let record ← Record.ofRaw ["id", "origin", "start", "end"] r
  let id ← record.required "id" WatchId.ofRaw?
  let origin ← record.required "origin" DocumentId.ofRaw?
  let start ← record.required "start" Raw.word32?
  let stop ← record.required "end" Raw.word32?
  return { id, origin, start, stop }

/-- The bridge function that reports a block's value. -/
def entry : String := "LtTools.watch"

/-- A block as the call that reports its value under a tag. Line breaks of the block stay where they
are, so no line of the document moves. -/
def wrap (tag : WatchTag) (source : String) : String :=
  entry ++ " (" ++ source ++ ") " ++ (Json.str tag.bridgeText).compact

end WatchTag

end InlineRepl
