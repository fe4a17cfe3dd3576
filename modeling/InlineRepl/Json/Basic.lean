import InlineRepl.Json.Quoted

/-!
# JSON values and their text

The values this library writes: integers are natural numbers, and an object keeps its members in the
order they were put in. `Json.compact` writes without any blank, `Json.pretty` with one member or
item a line and two blanks a level.
-/

namespace InlineRepl

/-- A JSON value to be written. -/
inductive Json where
  | null
  | bool (b : Bool)
  | nat (n : Nat)
  | str (s : String)
  | arr (items : List Json)
  | obj (members : List (String × Json))
  deriving Repr

namespace Json

/-- The digits of a number. -/
def digits (n : Nat) : List Char :=
  Nat.toDigits 10 n

/-- The written form of a truth value. -/
def boolText (b : Bool) : List Char :=
  if b then ['t', 'r', 'u', 'e'] else ['f', 'a', 'l', 's', 'e']

/-! ## Without blanks -/

mutual

/-- The text of a value, without blanks. -/
def text : Json → List Char
  | .null => ['n', 'u', 'l', 'l']
  | .bool b => boolText b
  | .nat n => digits n
  | .str s => quote s.toList
  | .arr items => '[' :: (itemsText items ++ [']'])
  | .obj members => '\x7b' :: (membersText members ++ ['\x7d'])

/-- The items of an array with commas between them. -/
def itemsText : List Json → List Char
  | [] => []
  | [v] => text v
  | v :: w :: rest => text v ++ ',' :: itemsText (w :: rest)

/-- The members of an object with commas between them. -/
def membersText : List (String × Json) → List Char
  | [] => []
  | [(k, v)] => quote k.toList ++ ':' :: text v
  | (k, v) :: m :: rest => quote k.toList ++ ':' :: text v ++ ',' :: membersText (m :: rest)

end

/-- The text of a value, without blanks. -/
def compact (j : Json) : String :=
  String.ofList j.text

/-! ## Indented -/

/-- A line break and the blanks before the first character of a line at the given level. -/
def newLine (level : Nat) : List Char :=
  '\n' :: List.replicate (2 * level) ' '

mutual

/-- The indented text of a value that begins on a line of the given level. -/
def indented (level : Nat) : Json → List Char
  | .null => ['n', 'u', 'l', 'l']
  | .bool b => boolText b
  | .nat n => digits n
  | .str s => quote s.toList
  | .arr [] => ['[', ']']
  | .arr (v :: rest) =>
    '[' :: (indentedItems (level + 1) (v :: rest) ++ newLine level ++ [']'])
  | .obj [] => ['\x7b', '\x7d']
  | .obj (m :: rest) =>
    '\x7b' :: (indentedMembers (level + 1) (m :: rest) ++ newLine level ++ ['\x7d'])

/-- The items of an array, each on a line of its own. -/
def indentedItems (level : Nat) : List Json → List Char
  | [] => []
  | [v] => newLine level ++ indented level v
  | v :: w :: rest => newLine level ++ indented level v ++ ',' :: indentedItems level (w :: rest)

/-- The members of an object, each on a line of its own. -/
def indentedMembers (level : Nat) : List (String × Json) → List Char
  | [] => []
  | [(k, v)] => newLine level ++ quote k.toList ++ ':' :: ' ' :: indented level v
  | (k, v) :: m :: rest =>
    newLine level ++ quote k.toList ++ ':' :: ' ' :: indented level v ++
      ',' :: indentedMembers level (m :: rest)

end

/-- The text of a value, indented by two blanks a level. -/
def pretty (j : Json) : String :=
  String.ofList (j.indented 0)

/-- The members that are present. -/
def present (members : List (String × Option Json)) : List (String × Json) :=
  members.filterMap fun member => member.2.map fun value => (member.1, value)

/-- A text, or `null` for none. -/
def strOrNull : Option String → Json
  | none => .null
  | some s => .str s

end Json

end InlineRepl
