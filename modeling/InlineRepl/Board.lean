import InlineRepl.Wire.Position

/-!
# The result board

The latest inline result of every line of every document, and the latest value of every watch.
Responses name no request, so two evaluations of one block meet on the same line; the one that
arrives last stays.

Both maps are kept in order: results by document and line, watch values by document and id.
-/

namespace InlineRepl

/-- Where a result is drawn: the line it stands on, and the first line of the block. -/
structure Anchor where
  line : UInt32
  startLine : UInt32
  deriving Repr, DecidableEq

/-- The anchor of a placement: the result stands on the last line. -/
def Anchor.ofPlacement (place : Placement) : Anchor :=
  { line := place.stop, startLine := place.start }

/-- What is drawn at an anchor. -/
inductive InlineResult where
  | text (text : String)
  | exception (text : String)
  /-- The bytes of a picture. -/
  | image (bytes : List UInt8)
  deriving Repr, DecidableEq

/-! ## Ordered maps -/

namespace OrderedMap

/-- Puts `value` under `key` into entries ordered by `before`, in the place of the old one. -/
def insert {K V : Type} [DecidableEq K] (before : K → K → Bool) (key : K) (value : V) :
    List (K × V) → List (K × V)
  | [] => [(key, value)]
  | entry :: entries =>
    if key = entry.1 then (key, value) :: entries
    else if before key entry.1 then (key, value) :: entry :: entries
    else entry :: insert before key value entries

/-- The entries whose keys are neither before `first` nor behind `last`. -/
def between {K V : Type} (before : K → K → Bool) (first last : K) (entries : List (K × V)) :
    List (K × V) :=
  entries.filter fun entry => !before entry.1 first && !before last entry.1

/-- The value under a key. -/
def get? {K V : Type} [DecidableEq K] (key : K) : List (K × V) → Option V
  | [] => none
  | entry :: entries => if key = entry.1 then some entry.2 else get? key entries

end OrderedMap

/-! ## The board -/

/-- Results by document and line, watch values by document and id. -/
structure Board where
  results : List ((DocumentId × UInt32) × (Anchor × InlineResult)) := []
  values : List ((DocumentId × WatchId) × String) := []
  deriving Repr, DecidableEq

namespace Board

/-- The order of results: by document, then by line. -/
def lineBefore (a b : DocumentId × UInt32) : Bool :=
  decide (a.1.val < b.1.val) || (decide (a.1 = b.1) && decide (a.2 < b.2))

/-- The order of watch values: by document, then by id, character by character. -/
def watchBefore (a b : DocumentId × WatchId) : Bool :=
  decide (a.1.val < b.1.val) || (decide (a.1 = b.1) && decide (a.2.name < b.2.name))

/-- The result on a line. -/
def get? (board : Board) (doc : DocumentId) (line : UInt32) : Option (Anchor × InlineResult) :=
  OrderedMap.get? (doc, line) board.results

/-- The value of a watch. -/
def value? (board : Board) (doc : DocumentId) (watch : WatchId) : Option String :=
  OrderedMap.get? (doc, watch) board.values

/-- Draws a result; the one that stood on its line is given back. -/
def place (board : Board) (doc : DocumentId) (anchor : Anchor) (result : InlineResult) :
    Option InlineResult × Board :=
  ((board.get? doc anchor.line).map Prod.snd,
    { board with
      results := OrderedMap.insert lineBefore (doc, anchor.line) (anchor, result) board.results })

/-- Sets the value of a watch; the old one is given back. -/
def setValue (board : Board) (doc : DocumentId) (watch : WatchId) (value : String) :
    Option String × Board :=
  (board.value? doc watch,
    { board with values := OrderedMap.insert watchBefore (doc, watch) value board.values })

/-- The last line that there can be. -/
def lastLine : UInt32 := 4294967295

/-- The results of a document, by line. -/
def resultsOf (board : Board) (doc : DocumentId) : List (Anchor × InlineResult) :=
  (OrderedMap.between lineBefore (doc, 0) (doc, lastLine) board.results).map Prod.snd

/-- The watch values of a document, by id. -/
def valuesOf (board : Board) (doc : DocumentId) : List (WatchId × String) :=
  (board.values.filter fun entry => decide (entry.1.1 = doc)).map fun entry => (entry.1.2, entry.2)

/-- Forgets a document. -/
def clear (board : Board) (doc : DocumentId) : Board :=
  { results := board.results.filter fun entry => decide (entry.1.1 ≠ doc)
    values := board.values.filter fun entry => decide (entry.1.1 ≠ doc) }

/-- Nothing is on the board. -/
def isEmpty (board : Board) : Bool :=
  board.results.isEmpty && board.values.isEmpty

end Board

end InlineRepl
