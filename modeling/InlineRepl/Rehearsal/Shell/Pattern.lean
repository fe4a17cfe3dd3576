import InlineRepl.Tree.Basic

/-!
# Patterns

A pattern is a list of characters, each with a mark that says whether it is quoted. Unquoted, a star
matches any text, a question mark any character, and brackets one of the characters in them.
-/

namespace InlineRepl.Rehearsal.Shell

/-- A character, and whether it is quoted. -/
abbrev Marked := Char × Bool

/-- The characters of a marked text. -/
def plainText (cs : List Marked) : List Char :=
  cs.map Prod.fst

/-- The class of characters that a name stands for. -/
def characterClass (name : List Char) (c : Char) : Bool :=
  match String.ofList name with
  | "alpha" => c.isAlpha
  | "digit" => c.isDigit
  | "alnum" => c.isAlphanum
  | "upper" => c.isUpper
  | "lower" => c.isLower
  | "space" => " \t\n\r\x0b\x0c".toList.contains c
  | "blank" => c == ' ' || c == '\t'
  | "punct" => decide (33 ≤ c.toNat ∧ c.toNat < 127) && !c.isAlphanum
  | "xdigit" => c.isDigit || "abcdefABCDEF".toList.contains c
  | "cntrl" => decide (c.toNat < 32 ∨ c.toNat = 127)
  | "print" => decide (32 ≤ c.toNat ∧ c.toNat < 127)
  | "graph" => decide (32 < c.toNat ∧ c.toNat < 127)
  | _ => false

/-- The members of brackets, behind the first one of which a closing bracket ends them: whether a
character is one of them, and what follows. None where nothing ends them. -/
def members (c : Char) : Nat → Bool → List Marked → Option (Bool × List Marked)
  | 0, _, _ => none
  | _, _, [] => none
  | fuel + 1, first, (d, quoted) :: rest =>
    if d = ']' ∧ quoted = false ∧ first = false then some (false, rest)
    else
      let go (hit : Bool) (rest : List Marked) : Option (Bool × List Marked) :=
        (members c fuel false rest).map fun (more, rest) => (hit || more, rest)
      let one : Option (Bool × List Marked) :=
        match rest with
        | ('-', false) :: (e, q) :: rest =>
          if e = ']' ∧ q = false then go (decide (c = d)) (('-', false) :: (e, q) :: rest)
          else go (decide (d ≤ c ∧ c ≤ e)) rest
        | rest => go (decide (c = d)) rest
      match d, quoted, rest with
      | '[', false, (':', false) :: cs =>
        let name := cs.takeWhile fun m => m.1 != ':'
        match cs.drop name.length with
        | (':', _) :: (']', _) :: cs => go (characterClass (plainText name) c) cs
        | _ => one
      | _, _, _ => one

/-- Whether a character is matched by brackets, what follows them, and none where there are none. -/
def brackets (c : Char) (rest : List Marked) : Option (Bool × List Marked) :=
  match rest with
  | ('!', false) :: rest =>
    (members c (rest.length + 1) true rest).map fun (hit, rest) => (!hit, rest)
  | rest => members c (rest.length + 1) true rest

/-- Whether a text matches a pattern; none where no part of the text behind it can match either, so
that a star before it need not be tried any further. -/
def matchFrom : Nat → List Marked → List Char → Option Bool
  | 0, _, _ => none
  | _, [], cs => some cs.isEmpty
  | fuel + 1, ('*', false) :: rest, cs =>
    match matchFrom fuel rest cs with
    | some false =>
      match cs with
      | [] => none
      | _ :: cs => matchFrom fuel (('*', false) :: rest) cs
    | answer => answer
  | fuel + 1, ('?', false) :: rest, cs =>
    match cs with
    | [] => none
    | _ :: cs => matchFrom fuel rest cs
  | fuel + 1, ('[', false) :: rest, cs =>
    match cs with
    | [] => none
    | c :: cs =>
      match brackets c rest with
      | some (hit, rest) => if hit then matchFrom fuel rest cs else some false
      | none => if c = '[' then matchFrom fuel rest cs else some false
  | fuel + 1, (d, _) :: rest, cs =>
    match cs with
    | [] => none
    | c :: cs => if c = d then matchFrom fuel rest cs else some false

/-- A text matches a pattern. -/
def isMatch (pattern : List Marked) (cs : List Char) : Bool :=
  matchFrom (pattern.length + cs.length + 1) pattern cs == some true

/-- Takes a match of a pattern off the front. -/
def trimFront (longest : Bool) (pattern : List Marked) (cs : List Char) : List Char :=
  let sizes := List.range (cs.length + 1)
  match (if longest then sizes.reverse else sizes).find? fun n => isMatch pattern (cs.take n) with
  | some n => cs.drop n
  | none => cs

/-- Takes a match of a pattern off the back. -/
def trimBack (longest : Bool) (pattern : List Marked) (cs : List Char) : List Char :=
  let sizes := List.range (cs.length + 1)
  match (if longest then sizes else sizes.reverse).find? fun n => isMatch pattern (cs.drop n) with
  | some n => cs.take n
  | none => cs

/-! ## Names of files -/

/-- The pattern has a part that does not stand for itself. -/
def hasWild (pattern : List Marked) : Bool :=
  pattern.any fun (c, quoted) => quoted == false && "*?[".toList.contains c

/-- The names in a directory, in order. -/
def namesIn (tree : Tree) (place : Place) : List String :=
  let names := tree.entries.filterMap fun (at_, _) =>
    if at_.dropLast = place then at_.getLast? else none
  names.mergeSort fun a b => decide (a ≤ b)

/-- The paths that match the pieces of a pattern, from a directory on. `spelled` is how the paths
begin. -/
def matchingFrom (tree : Tree) : List (List Marked) → Bool → String → List String
  | [], _, spelled => [spelled]
  | piece :: pieces, first, spelled =>
    let begin := if first then spelled else spelled ++ "/"
    if piece = [] ∨ hasWild piece = false then
      let path := begin ++ String.ofList (plainText piece)
      if pieces.isEmpty ∧ piece ≠ [] ∧ tree.hasPath ⟨path⟩ = false then []
      else matchingFrom tree pieces false path
    else
      let dir : Path := ⟨if begin = "" then "." else begin⟩
      match tree.resolve true dir with
      | .error _ => []
      | .ok place =>
        let hidden := (piece.head?.map fun c => c.1 == '.').getD false
        let names := if tree.directoryAt place then namesIn tree place else []
        let names := if hidden then "." :: ".." :: names else names
        let names := names.filter fun name =>
          (hidden || name.toList.head? != some '.') && isMatch piece name.toList
        names.flatMap fun name =>
          if pieces.isEmpty ∨ tree.isDirectory ⟨begin ++ name⟩ then
            matchingFrom tree pieces false (begin ++ name)
          else []

/-- The pieces of a marked text between slashes. -/
def slashPieces : List Marked → List (List Marked)
  | [] => [[]]
  | (c, quoted) :: rest =>
    match slashPieces rest with
    | piece :: pieces => if c = '/' then [] :: piece :: pieces else ((c, quoted) :: piece) :: pieces
    | [] => [[(c, quoted)]]

/-- The paths that a pattern stands for, or its own text where it stands for none. -/
def pathsOf (tree : Tree) (pattern : List Marked) : List (List Char) :=
  if hasWild pattern then
    match matchingFrom tree (slashPieces pattern) true "" with
    | [] => [plainText pattern]
    | paths => paths.map String.toList
  else [plainText pattern]

end InlineRepl.Rehearsal.Shell
