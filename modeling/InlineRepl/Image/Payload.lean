import InlineRepl.Image.Base64
import InlineRepl.Text.Blank
import InlineRepl.Text.Utf8

/-!
# Image payloads

A picture travels as base64, bare or behind the lead of a data URL, with blanks around it.
-/

namespace InlineRepl.Image

/-- How a data URL of a picture begins. -/
def urlLead : List Char :=
  "data:image/png;base64,".toList

/-- The base64 text of a payload: blanks around it and the lead of a data URL are dropped. -/
def encodedPart (payload : String) : List Char :=
  let trimmed := Text.trim payload.toList
  (Text.dropLead? urlLead trimmed).getD trimmed

/-- The bytes of the picture that a payload holds. -/
def decode (payload : String) : Except Base64.Fault (List UInt8) :=
  Base64.decode (Text.bytesOf (String.ofList (encodedPart payload)))

end InlineRepl.Image
