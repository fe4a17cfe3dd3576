import InlineRepl.Text.Blank

/-!
# Styled terminal text

A style is the text between the escape character's bracket and the letter m. A text that ends styles
itself gets the style back after each such end, so the style holds to the last character.
-/

namespace InlineRepl.Text

/-- The sequence that ends every style. -/
def styleEnd : List Char :=
  ['\x1b', '[', '0', 'm']

/-- The sequence that begins a style. -/
def styleBegin (style : String) : List Char :=
  '\x1b' :: '[' :: (style.toList ++ ['m'])

/-- Puts `again` behind every end of styles in a text. `seen` counts how much of the end has just
been read. -/
def restyle (again : List Char) (seen : Nat) : List Char → List Char
  | [] => []
  | c :: cs =>
    if styleEnd[seen]? = some c then
      if seen + 1 = styleEnd.length then c :: (again ++ restyle again 0 cs)
      else c :: restyle again (seen + 1) cs
    else c :: restyle again (if c = '\x1b' then 1 else 0) cs

/-- A text in a style. -/
def styled (style text : String) : String :=
  String.ofList (styleBegin style ++ restyle (styleBegin style) 0 text.toList ++ styleEnd)

/-- A text between the begin and the end of a style, and otherwise as it is. -/
def wrapped (style text : String) : String :=
  String.ofList (styleBegin style ++ text.toList ++ styleEnd)

/-- A text in a style where styles are shown. -/
def styledIf (shown : Bool) (style text : String) : String :=
  if shown then styled style text else text

/-- Whether styles are shown: a request to show them decides before a request not to, and where
there is neither they are shown on a terminal. A request to show that is spelled zero is none. -/
def showsStyles (force plain : Option String) (terminal : Bool) : Bool :=
  match force with
  | some "0" | none => plain.isNone && terminal
  | some _ => true

end InlineRepl.Text
