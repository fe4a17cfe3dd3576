import InlineRepl.Path
import InlineRepl.Wire.Position
import InlineRepl.Text.Lines
import InlineRepl.Text.Style

/-!
# Notices

The popups that say why a session cannot start, what their buttons do, and how a popup is laid out
in a terminal.
-/

namespace InlineRepl

/-- What choosing a button does. -/
inductive Choice where
  | openUrl (url : String)
  /-- Save the document and try to connect once more. -/
  | saveAndRetry (doc : DocumentId)
  | dismiss
  deriving Repr, DecidableEq

/-- A button of a popup. -/
structure Button where
  label : String
  choice : Choice
  deriving Repr, DecidableEq

/-- A notice that waits for an answer. `detail` is shown as it is, under `body`. -/
structure Popup where
  header : String
  body : String
  detail : Option String := none
  buttons : List Button
  deriving Repr, DecidableEq

namespace Popup

/-- Where the interpreter can be had. -/
def downloadUrl : String := "http://www.fsharp.org"

/-- There is no interpreter of the given name. -/
def interpreterMissing (command : String) : Popup :=
  { header := "We couldn't find " ++ command ++ "."
    body :=
      "In order to evaluate in F# files, a F# interactive (" ++ command ++
        ") has to be installed and on your system PATH."
    buttons := [⟨"Download FSharp", .openUrl downloadUrl⟩, ⟨"ok", .dismiss⟩] }

/-- There is no bridge script where it should be. -/
def bridgeMissing (path : Path) : Popup :=
  { header := "We couldn't find the F# bridge script."
    body :=
      "The bridge script was expected at " ++ path.text ++
        ". Reinstall fsi-eval or set bridge-script to its location."
    buttons := [⟨"ok", .dismiss⟩] }

/-- The document has no project root, most likely because it was never saved. -/
def unsavedDocument (origin : Option DocumentId) : Popup :=
  { header := "We couldn't find this file."
    body := "In order to evaluate in F# files, the file has to be on disk somewhere."
    buttons :=
      (origin.map fun doc => Button.mk "Save this file" (.saveAndRetry doc)).toList ++
        [⟨"Cancel", .dismiss⟩] }

/-- The interpreter did not start, having written `report`. -/
def connectFailed (report : String) : Popup :=
  { header := "We couldn't connect."
    body :=
      "Looks like there was an issue trying to connect to the project. Here's what we got:"
    detail := some report
    buttons := [⟨"close", .dismiss⟩] }

/-- The rows of a popup in a terminal: header, body, indented detail, buttons. -/
def rows (popup : Popup) (color : Bool) : List String :=
  Text.styledIf color "1;33" popup.header :: popup.body ::
    (((popup.detail.map Text.linesOf).getD []).map fun line => "    " ++ line) ++
      (if popup.buttons.isEmpty then []
      else [String.intercalate " " (popup.buttons.map fun b => "[" ++ b.label ++ "]")])

/-- A popup as terminal output. -/
def render (popup : Popup) (color : Bool) : String :=
  String.join ((popup.rows color).map fun row => row ++ "\n")

end Popup

end InlineRepl
