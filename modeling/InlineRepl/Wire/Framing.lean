import InlineRepl.Text.Blank
import InlineRepl.Text.Lines
import InlineRepl.Text.Utf8
import InlineRepl.Json.Basic
import InlineRepl.Json.Record

/-!
# One record a line

The control channel carries one JSON record a line, in UTF-8. Lines of blanks are skipped. Every
other line is one frame: a record, a line that is no record of the kind asked for, or a line that is
no text. A bad line never touches the lines after it.
-/

namespace InlineRepl

open Json (Raw)

/-- What one line holds. -/
inductive Frame (α : Type) where
  | record (value : α)
  /-- A text that is no record; `excerpt` is how it begins. -/
  | malformed (excerpt : String)
  /-- Bytes that are no text. -/
  | unreadable
  deriving Repr, DecidableEq

namespace Frame

/-- The most characters of a malformed line that are shown. -/
def excerptLength : Nat := 200

/-- The frame of a line's text, none for a line of blanks. -/
def ofText? {α : Type} (read : Raw → Option α) (text : List Char) : Option (Frame α) :=
  match Text.trim text with
  | [] => none
  | trimmed =>
    match (Raw.parse? trimmed).bind read with
    | some value => some (.record value)
    | none => some (.malformed (String.ofList (trimmed.take excerptLength)))

/-- The frame of a line's bytes, none for a line of blanks. -/
def ofLine? {α : Type} (read : Raw → Option α) (line : List UInt8) : Option (Frame α) :=
  match Text.Utf8.decode? line with
  | some text => ofText? read text.toList
  | none => some .unreadable

/-- The frames of a stream of bytes. -/
def readAll {α : Type} (read : Raw → Option α) (bytes : List UInt8) : List (Frame α) :=
  (Text.cutLines 0x0A bytes).filterMap (ofLine? read)

end Frame

/-- A record as a line of the channel. -/
def writeFrame (record : Json) : String :=
  record.compact ++ "\n"

end InlineRepl
