import InlineRepl.Board
import InlineRepl.Json.Basic
import InlineRepl.Text.Style

/-!
# Reports

What an evaluation produced: its inline results by line, its watch values and what it printed. Lines
count from one here. A report is written as text, one row a result, or as a JSON value.
-/

namespace InlineRepl

/-- What a row of a report shows. -/
inductive ReportValue where
  | text (text : String)
  | exception (text : String)
  /-- A picture of so many bytes, and the file it was written to. -/
  | image (bytes : Nat) (file : Option String)
  deriving Repr, DecidableEq

/-- One inline result. -/
structure ReportRow where
  line : UInt32
  startLine : UInt32
  value : ReportValue
  deriving Repr, DecidableEq

/-- The value of a watch. -/
structure ReportedWatch where
  id : String
  value : String
  deriving Repr, DecidableEq

/-- Something that was printed. -/
structure ReportedPrint where
  file : String
  message : String
  deriving Repr, DecidableEq

/-- Everything that an evaluation produced. -/
structure Report where
  file : String
  results : List ReportRow := []
  watches : List ReportedWatch := []
  printed : List ReportedPrint := []
  deriving Repr, DecidableEq

/-! ## As JSON -/

/-- The members of a value, its kind first. -/
def ReportValue.members : ReportValue → List (String × Json)
  | text t => [("kind", .str "text"), ("text", .str t)]
  | exception t => [("kind", .str "exception"), ("text", .str t)]
  | image bytes file =>
    Json.present
      [("kind", some (.str "image")), ("bytes", some (.nat bytes)), ("file", file.map Json.str)]

def ReportRow.toJson (row : ReportRow) : Json :=
  .obj (("line", .nat row.line.toNat) :: ("startLine", .nat row.startLine.toNat) ::
    row.value.members)

def ReportedWatch.toJson (watch : ReportedWatch) : Json :=
  .obj [("id", .str watch.id), ("value", .str watch.value)]

def ReportedPrint.toJson (print : ReportedPrint) : Json :=
  .obj [("file", .str print.file), ("msg", .str print.message)]

/-- An array, left out when it is empty. -/
def Report.unlessEmpty (items : List Json) : Option Json :=
  if items.isEmpty then none else some (.arr items)

def Report.toJson (report : Report) : Json :=
  .obj (Json.present
    [("file", some (.str report.file)),
      ("results", some (.arr (report.results.map ReportRow.toJson))),
      ("watches", unlessEmpty (report.watches.map ReportedWatch.toJson)),
      ("printed", unlessEmpty (report.printed.map ReportedPrint.toJson))])

/-! ## As text -/

/-- The width of the widest line number, one where there is none. -/
def Report.gutterWidth (report : Report) : Nat :=
  match report.results.map fun row => (Json.digits row.line.toNat).length with
  | [] => 1
  | widths => widths.foldl max 0

/-- A line number, moved to the right. -/
def Report.gutter (width : Nat) (line : UInt32) : String :=
  let digits := Json.digits line.toNat
  String.ofList (List.replicate (width - digits.length) ' ' ++ digits)

/-- A row behind its line number. -/
def ReportRow.render (row : ReportRow) (width : Nat) (color : Bool) : String :=
  let gutter := Text.styledIf color "2" (Report.gutter width row.line)
  match row.value with
  | .text t => gutter ++ ": " ++ t
  | .exception t => gutter ++ "! " ++ Text.styledIf color "31" t
  | .image bytes none => gutter ++ ": [image " ++ toString bytes ++ " bytes]"
  | .image bytes (some file) =>
    gutter ++ ": [image " ++ toString bytes ++ " bytes -> " ++ file ++ "]"

/-- The rows of a report: results, then watch values. What was printed is not among them. -/
def Report.rows (report : Report) (color : Bool) : List String :=
  report.results.map (fun row => row.render report.gutterWidth color) ++
    report.watches.map fun watch => "watch " ++ watch.id ++ ": " ++ watch.value

/-- A report as text. -/
def Report.render (report : Report) (color : Bool) : String :=
  String.join ((report.rows color).map fun row => row ++ "\n")

end InlineRepl
