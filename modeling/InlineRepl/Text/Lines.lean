/-!
# Lines of a text

`Text.cut` takes a sequence apart at every occurrence of a mark; `Text.lines` cuts at line feeds and
drops the carriage return that stands right before one. A last line that nothing ends counts only
when it is not empty, and keeps its carriage return.
-/

namespace InlineRepl.Text

/-- The pieces that `mark` ends, and the piece after the last mark. -/
def cut {α : Type} [DecidableEq α] (mark : α) : List α → List (List α) × List α
  | [] => ([], [])
  | c :: cs =>
    match cut mark cs with
    | (ended, rest) =>
      if c = mark then ([] :: ended, rest)
      else
        match ended with
        | [] => ([], c :: rest)
        | piece :: ended => ((c :: piece) :: ended, rest)

/-- The pieces between marks: one more than there are marks. -/
def split {α : Type} [DecidableEq α] (mark : α) (cs : List α) : List (List α) :=
  (cut mark cs).1 ++ [(cut mark cs).2]

/-- The pieces that `mark` ends, and what follows the last one unless nothing does. -/
def cutLines {α : Type} [DecidableEq α] (mark : α) (cs : List α) : List (List α) :=
  match cut mark cs with
  | (ended, []) => ended
  | (ended, rest) => ended ++ [rest]

/-- A line without the carriage return at its end, if it has one. -/
def dropReturn : List Char → List Char
  | [] => []
  | ['\r'] => []
  | c :: cs => c :: dropReturn cs

/-- The lines of a text, without their line ends. -/
def lines (cs : List Char) : List (List Char) :=
  match cut '\n' cs with
  | (ended, []) => ended.map dropReturn
  | (ended, rest) => ended.map dropReturn ++ [rest]

/-- The lines of a string. -/
def linesOf (s : String) : List String :=
  (lines s.toList).map String.ofList

/-- The strings with a line feed between neighbours. -/
def joinLines (rows : List String) : String :=
  String.intercalate "\n" rows

end InlineRepl.Text
