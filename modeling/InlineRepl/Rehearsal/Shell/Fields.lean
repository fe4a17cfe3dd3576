import InlineRepl.Rehearsal.Shell.Pattern
import InlineRepl.Rehearsal.Shell.State

/-!
# Fields

What the pieces of a word have become once their values are known, and how that is split into
fields: only the values of unquoted parameters are, at the characters of `IFS`. Blanks among them
separate fields however many there are; every other one ends a field of its own.
-/

namespace InlineRepl.Rehearsal.Shell

/-- A part of an expanded word. -/
inductive Fragment where
  /-- A character that is not split at. -/
  | char (c : Char) (quoted : Bool)
  /-- A value that is split. -/
  | soft (cs : List Char)
  /-- A pair of quotes: there is a field, even if it stays empty. -/
  | quotes
  /-- The end of a field. -/
  | gap
  deriving Repr, DecidableEq

/-- A text in quotes. -/
def quotedFragments (cs : List Char) : List Fragment :=
  .quotes :: cs.map fun c => .char c true

/-- A value, quoted or not. -/
def valueFragments (quoted : Bool) (cs : List Char) : List Fragment :=
  if quoted then quotedFragments cs else [.soft cs]

/-- The arguments, each a field of its own. -/
def argFragments (quoted : Bool) (args : List (List Char)) : List Fragment :=
  List.intercalate [Fragment.gap] (args.map (valueFragments quoted))

/-- The characters of fragments that are not split, each with its mark. -/
def markedOf (fragments : List Fragment) : List Marked :=
  fragments.flatMap fun fragment =>
    match fragment with
    | .char c quoted => [(c, quoted)]
    | .soft cs => cs.map fun c => (c, false)
    | .quotes => []
    | .gap => [(' ', false)]

/-- The characters of fragments that are not split. -/
def textOf (fragments : List Fragment) : List Char :=
  plainText (markedOf fragments)

/-- How far fields have been split, the last one first. -/
structure Split where
  done : List (List Marked) := []
  /-- The field that is not at its end, the last character first. -/
  current : Option (List Marked) := none
  /-- Only blanks have followed the last field. -/
  blank : Bool := false

namespace Split

/-- Ends the field. -/
def close (split : Split) : Split :=
  match split.current with
  | some field => { done := field.reverse :: split.done, current := none, blank := true }
  | none => split

/-- Adds a character. -/
def push (split : Split) (c : Marked) : Split :=
  { split with current := some (c :: split.current.getD []), blank := false }

/-- Adds a character of a value. -/
def pushSoft (separators : List Char) (split : Split) (c : Char) : Split :=
  if separators.contains c then
    if c = ' ' ∨ c = '\t' ∨ c = '\n' then split.close
    else
      match split.current with
      | some _ => { split.close with blank := false }
      | none =>
        if split.blank then { split with blank := false }
        else { split with done := [] :: split.done }
  else split.push (c, false)

/-- Adds a fragment. -/
def add (separators : List Char) (split : Split) : Fragment → Split
  | .char c quoted => split.push (c, quoted)
  | .soft cs => cs.foldl (pushSoft separators) split
  | .quotes => { split with current := some (split.current.getD []), blank := false }
  | .gap => { split.close with blank := false }

end Split

/-- The fields of fragments. -/
def fieldsOf (separators : List Char) (fragments : List Fragment) : List (List Marked) :=
  (fragments.foldl (Split.add separators) {}).close.done.reverse

/-- Cuts a line that has been read into so many words; the last one takes what is left. An escaped
character is none of the separators. -/
def readWords (separators : List Char) : Nat → List Marked → List (List Char)
  | count, cs =>
    let isBlank (c : Marked) : Bool :=
      !c.2 && separators.contains c.1 && (c.1 == ' ' || c.1 == '\t' || c.1 == '\n')
    let isMark (c : Marked) : Bool :=
      !c.2 && separators.contains c.1
    let trim (cs : List Marked) : List Marked := (cs.reverse.dropWhile isBlank).reverse
    let rec go : Nat → List Marked → List (List Char)
      | 0, _ => []
      | 1, cs =>
        let cs := cs.dropWhile isBlank
        let word := cs.takeWhile fun c => !isMark c
        let rest := (cs.drop word.length).dropWhile isBlank
        let rest := match rest with
          | c :: rest => if isMark c then rest.dropWhile isBlank else c :: rest
          | [] => []
        [plainText (if rest.isEmpty then word else trim cs)]
      | count + 1, cs =>
        let cs := cs.dropWhile isBlank
        let word := cs.takeWhile fun c => !isMark c
        let rest := (cs.drop word.length).dropWhile isBlank
        let rest := match rest with
          | c :: rest => if isMark c then rest else c :: rest
          | [] => []
        plainText word :: go count rest
    go count cs

end InlineRepl.Rehearsal.Shell
