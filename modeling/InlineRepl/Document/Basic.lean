import InlineRepl.Document.Watch
import InlineRepl.Path
import InlineRepl.Text.Lines

/-!
# Documents

A document is its lines, a caret, perhaps a selection, and watched blocks that never overlap and
stay in line order. `Document.watchedText` is the text of a span of lines in which every watched
block that lies inside the span is wrapped.
-/

namespace InlineRepl

/-- A text buffer with watches. -/
structure Document where
  id : DocumentId
  path : Option Path := none
  lines : List String
  cursor : Cursor := {}
  selection : Option LineRange := none
  watches : List Watch := []
  /-- How many watches were ever placed. -/
  issued : Nat := 0
  deriving Repr, DecidableEq

namespace Document

/-- A document of the given text. -/
def ofText (id : DocumentId) (text : String) : Document :=
  { id, lines := Text.linesOf text }

/-- The last component of the document's path. -/
def name (doc : Document) : Option String :=
  doc.path.bind Path.fileName?

/-- The number of lines, counted in 32 bits: of more lines only the remainder is left. -/
def lineCount (doc : Document) : UInt32 :=
  UInt32.ofNat doc.lines.length

/-- Puts the caret somewhere; nothing is selected any more. -/
def setCursor (doc : Document) (cursor : Cursor) : Document :=
  { doc with cursor, selection := none }

/-- Selects whole lines and puts the caret on the last of them. -/
def select (doc : Document) (range : LineRange) : Document :=
  { doc with cursor := { line := range.stop, column := 0 }, selection := some range }

/-! ## Watches -/

/-- Two ranges have a line in common, provided that neither is inverted. -/
def overlap (a b : LineRange) : Bool :=
  decide (a.start ≤ b.stop) && decide (b.start ≤ a.stop)

/-- Puts a watch behind those that begin no later. -/
def insertWatch (watch : Watch) : List Watch → List Watch
  | [] => [watch]
  | w :: ws =>
    if watch.range.start < w.range.start then watch :: w :: ws else w :: insertWatch watch ws

/-- The id of the `n`-th watch ever placed on a document. -/
def watchId (doc : DocumentId) (n : Nat) : WatchId :=
  ⟨toString doc.val.toNat ++ "-w" ++ toString n⟩

/-- Places a watch. An inverted range is refused, and one that overlaps another watch. -/
def addWatch (doc : Document) (range : LineRange) : Option (WatchId × Document) :=
  if doc.watches.any (fun w => overlap w.range range) ∨ range.stop < range.start then none
  else
    let id := watchId doc.id (doc.issued + 1)
    some (id,
      { doc with watches := insertWatch { id, range } doc.watches, issued := doc.issued + 1 })

/-! ## Text -/

/-- The lines `first`, …, `stop - 1`, as far as they exist. -/
def linesBetween (doc : Document) (first stop : Nat) : List String :=
  (doc.lines.take stop).drop first

/-- The text of a range, cut off at the last line. -/
def textOf (doc : Document) (range : LineRange) : String :=
  Text.joinLines (doc.linesBetween range.start.toNat (range.stop.toNat + 1))

/-- The text of the selected lines, empty without a selection. -/
def selectionText (doc : Document) : String :=
  (doc.selection.map doc.textOf).getD ""

/-- The lines from `line` up to `stop`, blocks of the given watches wrapped. -/
def weave (doc : Document) (wrap : WatchTag → String → String) (stop : Nat) :
    Nat → List Watch → List String
  | line, [] => doc.linesBetween line stop
  | line, w :: ws =>
    doc.linesBetween line w.range.start.toNat ++
      wrap (WatchTag.ofWatch doc.id w) (doc.textOf w.range) ::
        weave doc wrap stop (w.range.stop.toNat + 1) ws

/-- The text of the lines `start`, …, `stop` (the whole document where they are not given), each
watched block inside them replaced by what `wrap` makes of it. -/
def watchedText (doc : Document) (start stop : Option UInt32)
    (wrap : WatchTag → String → String) : String :=
  let last := doc.lineCount.toNat - 1
  let first := (start.map UInt32.toNat).getD 0
  let final := min ((stop.map UInt32.toNat).getD last) last
  if doc.lines.isEmpty ∨ final < first then ""
  else
    let inside := doc.watches.filter fun w =>
      decide (first ≤ w.range.start.toNat) && decide (w.range.stop.toNat ≤ final)
    Text.joinLines (doc.weave wrap (final + 1) first inside)

end Document

end InlineRepl
