import InlineRepl.Host.Basic
import InlineRepl.Text.Style

/-!
# The terminal

The surroundings of a host that runs in a terminal. Results are collected on a board and shown when
the command is done; popups and labels are shown at once on standard error, prints on standard
output if they are echoed.

A terminal is what it has heard: `Terminal.ofCalls` makes it from everything the host has said.
-/

namespace InlineRepl

/-- What a terminal has heard. -/
structure Terminal where
  /-- Prints are shown as they arrive. -/
  echo : Bool
  color : Bool
  board : Board := {}
  /-- The popups shown, in order. -/
  popups : List Popup := []
  /-- What has been printed, in order. -/
  printed : List LogEntry := []
  /-- How many results and watch values have come. -/
  responses : Nat := 0
  working : Bool := false
  /-- The text on standard output. -/
  out : String := ""
  /-- The text on standard error. -/
  err : String := ""
  deriving Repr, DecidableEq

namespace Terminal

/-- A result for a document. -/
def showResult (t : Terminal) (doc : DocumentId) (anchor : Anchor) (result : InlineResult) :
    Terminal :=
  { t with responses := t.responses + 1, board := (t.board.place doc anchor result).2 }

/-- A value for a watch. -/
def updateWatch (t : Terminal) (doc : DocumentId) (watch : WatchId) (value : String) : Terminal :=
  { t with responses := t.responses + 1, board := (t.board.setValue doc watch value).2 }

/-- A line for standard error. -/
def complain (t : Terminal) (line : String) : Terminal :=
  { t with err := t.err ++ line ++ "\n" }

/-- A print. -/
def log (t : Terminal) (entry : LogEntry) : Terminal :=
  { t with
    printed := t.printed ++ [entry]
    out := if t.echo then t.out ++ entry.content ++ "\n" else t.out }

/-- Hears one call. Documents come from files, so there is nothing to save. -/
def hear (t : Terminal) : Call → Terminal
  | .beginWorking label =>
    let t := { t with working := true }
    if label = "" then t else t.complain (Text.styledIf t.color "2" label)
  | .endWorking => { t with working := false }
  | .popup popup => { t with popups := t.popups ++ [popup], err := t.err ++ popup.render t.color }
  | .openUrl url => t.complain ("see " ++ url)
  | .showResult doc anchor result => t.showResult doc anchor result
  | .updateWatch doc watch value => t.updateWatch doc watch value
  | .log entry => t.log entry
  | .save _ | .launch .. | .persist .. => t

/-- The terminal that has heard the given calls. -/
def ofCalls (echo color : Bool) (calls : List Call) : Terminal :=
  calls.foldl hear { echo, color }

/-- The header of the first popup. -/
def firstPopup (t : Terminal) : Option String :=
  t.popups.head?.map Popup.header

end Terminal

end InlineRepl
