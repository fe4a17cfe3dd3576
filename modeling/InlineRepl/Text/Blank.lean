/-!
# Blank characters

The Unicode property White_Space, as a table of code point ranges, and trimming by it. Lines of
the control channel, image payloads and line numbers on the command line are all trimmed of it.
-/

namespace InlineRepl.Text

/-- The ranges of code points with the property White_Space, ends included. -/
def blankRanges : List (Nat × Nat) :=
  [(0x09, 0x0D), (0x20, 0x20), (0x85, 0x85), (0xA0, 0xA0), (0x1680, 0x1680), (0x2000, 0x200A),
    (0x2028, 0x2029), (0x202F, 0x202F), (0x205F, 0x205F), (0x3000, 0x3000)]

/-- The character has the property White_Space. -/
def isBlank (c : Char) : Bool :=
  blankRanges.any fun range => decide (range.1 ≤ c.toNat) && decide (c.toNat ≤ range.2)

/-- Drops blanks from the front. -/
def trimFront (cs : List Char) : List Char :=
  cs.dropWhile isBlank

/-- Drops blanks from the back. -/
def trimBack (cs : List Char) : List Char :=
  (cs.reverse.dropWhile isBlank).reverse

/-- Drops blanks from both ends. -/
def trim (cs : List Char) : List Char :=
  trimBack (trimFront cs)

/-- What follows `lead` in a text that begins with it. -/
def dropLead? (lead cs : List Char) : Option (List Char) :=
  match lead, cs with
  | [], cs => some cs
  | _ :: _, [] => none
  | l :: lead, c :: cs => if l = c then dropLead? lead cs else none

/-- Some part of `cs` equals `sought`. -/
def hasPart (sought : List Char) : List Char → Bool
  | [] => sought.isEmpty
  | c :: cs => (dropLead? sought (c :: cs)).isSome || hasPart sought cs

/-- The texts before and after the first `mark`. -/
def splitAtFirst? (mark : Char) : List Char → Option (List Char × List Char)
  | [] => none
  | c :: cs =>
    if c = mark then some ([], cs)
    else (splitAtFirst? mark cs).map fun parts => (c :: parts.1, parts.2)

end InlineRepl.Text
