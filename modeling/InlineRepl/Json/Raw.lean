import InlineRepl.Json.Quoted
import InlineRepl.Json.Numeral

/-!
# JSON text as it is read

`Raw` is a JSON text before anyone takes it for a record: repeated keys, the spelling of numbers and
unpaired halves of strings are still there. `Raw.parse?` reads strictly: blanks are space, tab, line
feed and carriage return, and nothing but blanks may follow the value.

`Raw.isStrict` is the stricter reading that responses ask for: every number is a double, every
string has a text, and at most `depthLimit` levels are nested.
-/

namespace InlineRepl.Json

/-- A JSON text as read. -/
inductive Raw where
  | null
  | bool (b : Bool)
  | number (n : Numeral)
  | string (units : List Unit16)
  | array (items : List Raw)
  | object (members : List (List Unit16 × Raw))
  deriving Repr

namespace Raw

/-! ## Reading -/

/-- A blank between tokens. -/
def isSpace (c : Char) : Bool :=
  c == ' ' || c == '\t' || c == '\n' || c == '\r'

/-- Drops blanks from the front. -/
def skip (cs : List Char) : List Char :=
  cs.dropWhile isSpace

/-- The key of a member and its colon. -/
def scanKey (cs : List Char) : Option (List Unit16 × List Char) :=
  match skip cs with
  | '"' :: rest =>
    match scanQuoted rest with
    | some (key, rest) =>
      match skip rest with
      | ':' :: rest => some (key, rest)
      | _ => none
    | none => none
  | _ => none

mutual

/-- The value at the front of a text. The fuel bounds the number of values and separators read;
the length of the text is always enough. -/
def scan : Nat → List Char → Option (Raw × List Char)
  | 0, _ => none
  | fuel + 1, cs =>
    match skip cs with
    | 'n' :: 'u' :: 'l' :: 'l' :: rest => some (.null, rest)
    | 't' :: 'r' :: 'u' :: 'e' :: rest => some (.bool true, rest)
    | 'f' :: 'a' :: 'l' :: 's' :: 'e' :: rest => some (.bool false, rest)
    | '"' :: rest => (scanQuoted rest).map fun scanned => (.string scanned.1, scanned.2)
    | '[' :: rest =>
      match skip rest with
      | ']' :: rest => some (.array [], rest)
      | rest => (scanItems fuel rest).map fun scanned => (.array scanned.1, scanned.2)
    | '\x7b' :: rest =>
      match skip rest with
      | '\x7d' :: rest => some (.object [], rest)
      | rest => (scanMembers fuel rest).map fun scanned => (.object scanned.1, scanned.2)
    | cs => (Numeral.scan cs).map fun scanned => (.number scanned.1, scanned.2)

/-- The items of an array, up to its closing bracket. -/
def scanItems : Nat → List Char → Option (List Raw × List Char)
  | 0, _ => none
  | fuel + 1, cs =>
    match scan fuel cs with
    | none => none
    | some (item, rest) =>
      match skip rest with
      | ']' :: rest => some ([item], rest)
      | ',' :: rest => (scanItems fuel rest).map fun scanned => (item :: scanned.1, scanned.2)
      | _ => none

/-- The members of an object, up to its closing brace. -/
def scanMembers : Nat → List Char → Option (List (List Unit16 × Raw) × List Char)
  | 0, _ => none
  | fuel + 1, cs =>
    match scanKey cs with
    | none => none
    | some (key, rest) =>
      match scan fuel rest with
      | none => none
      | some (value, rest) =>
        match skip rest with
        | '\x7d' :: rest => some ([(key, value)], rest)
        | ',' :: rest =>
          (scanMembers fuel rest).map fun scanned => ((key, value) :: scanned.1, scanned.2)
        | _ => none

end

/-- Reads a text that is one value, blanks around it aside. -/
def parse? (cs : List Char) : Option Raw :=
  match scan (cs.length + 1) cs with
  | some (value, rest) => if (skip rest).isEmpty then some value else none
  | none => none

/-! ## The stricter reading -/

mutual

/-- Every number is a double and every string has a text. -/
def isPlain : Raw → Bool
  | .null => true
  | .bool _ => true
  | .number n => n.fitsDouble
  | .string units => (joinUnits units).isSome
  | .array items => arePlain items
  | .object members => membersArePlain members

/-- `isPlain` of every item. -/
def arePlain : List Raw → Bool
  | [] => true
  | item :: items => isPlain item && arePlain items

/-- `isPlain` of every member, its key included. -/
def membersArePlain : List (List Unit16 × Raw) → Bool
  | [] => true
  | (key, value) :: members => (joinUnits key).isSome && isPlain value && membersArePlain members

end

mutual

/-- The number of arrays and objects around the innermost value. -/
def depth : Raw → Nat
  | .array items => itemsDepth items + 1
  | .object members => membersDepth members + 1
  | _ => 0

/-- The greatest depth of an item. -/
def itemsDepth : List Raw → Nat
  | [] => 0
  | item :: items => max (depth item) (itemsDepth items)

/-- The greatest depth of a member. -/
def membersDepth : List (List Unit16 × Raw) → Nat
  | [] => 0
  | (_, value) :: members => max (depth value) (membersDepth members)

end

/-- The deepest nesting that the stricter reading allows. -/
def depthLimit : Nat := 127

/-- The text passes the stricter reading. -/
def isStrict (r : Raw) : Bool :=
  r.isPlain && decide (r.depth ≤ depthLimit)

/-! ## Plain values -/

/-- The text of a string. -/
def text? : Raw → Option String
  | .string units => (joinUnits units).map String.ofList
  | _ => none

/-- The value of an integer literal. -/
def nat? : Raw → Option Nat
  | .number n => n.toNat?
  | _ => none

/-- An integer below 2 ^ 32. -/
def word32? (r : Raw) : Option UInt32 :=
  match r.nat? with
  | some n => if n < Nat.pow 2 32 then some (UInt32.ofNat n) else none
  | none => none

/-- An integer below 2 ^ 64. -/
def word64? (r : Raw) : Option UInt64 :=
  match r.nat? with
  | some n => if n < Nat.pow 2 64 then some (UInt64.ofNat n) else none
  | none => none

end Raw

end InlineRepl.Json
