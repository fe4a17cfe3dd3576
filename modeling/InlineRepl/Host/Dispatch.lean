import InlineRepl.Host.Basic
import InlineRepl.Image.Payload

/-!
# Routing responses

Where each kind of response goes: results, exceptions and pictures to the editor, prints to the
console, watch values to their watch. A picture that cannot be decoded and a watch value without a
watch go nowhere. Any response ends the work that was shown.
-/

namespace InlineRepl.Host

/-- Shown for code that ran and has no value. -/
def successGlyph : String := "\u2713"

/-- The place in a file that printed output is logged under. -/
def printLine : String := "stdout"

/-- What a response makes the host tell its surroundings. -/
def callOf (inbound : Inbound) : Option Call :=
  let doc := inbound.origin
  match inbound.response with
  | .result value place => some (.showResult doc (Anchor.ofPlacement place) (.text value))
  | .success place => some (.showResult doc (Anchor.ofPlacement place) (.text successGlyph))
  | .exception text place => some (.showResult doc (Anchor.ofPlacement place) (.exception text))
  | .image payload place =>
    match Image.decode payload with
    | .ok bytes => some (.showResult doc (Anchor.ofPlacement place) (.image bytes))
    | .error _ => none
  | .print file message =>
    some (.log { file := Path.baseName file, line := printLine, content := message })
  | .watch value place => place.watch.map fun watch => .updateWatch doc watch value

/-- Routes a response. -/
def dispatch (host : Host) (inbound : Inbound) : Host :=
  let host := host.tell .endWorking
  match callOf inbound with
  | some call => host.tell call
  | none => host

end InlineRepl.Host
