import InlineRepl.Text.Lines
import InlineRepl.Text.Utf8

/-!
# Printing

How the shell writes words: with the escapes that a backslash begins, and by formats whose
directives take one argument each.
-/

namespace InlineRepl.Rehearsal.Shell

/-- The bytes of characters. -/
def encode (cs : List Char) : List UInt8 :=
  cs.flatMap String.utf8EncodeChar

/-- The characters of a number. -/
def shown (n : Int) : List Char :=
  (toString n).toList

/-! ## Escapes -/

/-- The value of a digit. -/
def digitValue (c : Char) : Nat :=
  if c.isDigit then c.toNat - '0'.toNat
  else if 'a' ≤ c ∧ c ≤ 'z' then c.toNat - 'a'.toNat + 10
  else if 'A' ≤ c ∧ c ≤ 'Z' then c.toNat - 'A'.toNat + 10
  else 99

/-- Reads at most `most` digits of a base. -/
def readDigits (base : Nat) : Nat → Nat → List Char → Nat × List Char
  | 0, n, cs => (n, cs)
  | _, n, [] => (n, [])
  | most + 1, n, c :: cs =>
    if digitValue c < base then readDigits base most (n * base + digitValue c) cs else (n, c :: cs)

/-- The byte that a letter behind a backslash stands for. -/
def escaped? : Char → Option UInt8
  | 'a' => some 7
  | 'b' => some 8
  | 't' => some 9
  | 'n' => some 10
  | 'v' => some 11
  | 'f' => some 12
  | 'r' => some 13
  | '\\' => some 92
  | _ => none

/-- What may stand behind a backslash. -/
structure Escapes where
  /-- An octal number follows a zero, of at most three digits more. -/
  zero : Bool := false
  /-- An octal number may stand alone. -/
  octal : Bool := false
  /-- The letter c ends the output. -/
  stop : Bool := false
  /-- Numbers of base sixteen follow an x. -/
  wide : Bool := false

/-- The bytes of a text with backslashes, and whether the output ends here. -/
def unescape (escapes : Escapes) : Nat → List Char → List UInt8 × Bool
  | 0, _ => ([], false)
  | _, [] => ([], false)
  | fuel + 1, '\\' :: c :: cs =>
    let go (bytes : List UInt8) (cs : List Char) : List UInt8 × Bool :=
      match unescape escapes fuel cs with
      | (more, ends) => (bytes ++ more, ends)
    let number (base most : Nat) (cs : List Char) : List UInt8 × Bool :=
      match readDigits base most 0 cs with
      | (n, cs) => go [UInt8.ofNat n] cs
    match escaped? c with
    | some b => go [b] cs
    | none =>
      if c = 'c' ∧ escapes.stop then ([], true)
      else if escapes.zero ∧ c = '0' then number 8 3 cs
      else if escapes.octal ∧ digitValue c < 8 then number 8 3 (c :: cs)
      else if c = 'e' then go [27] cs
      else if escapes.wide ∧ c = 'x' ∧ (cs.head?.map digitValue).getD 99 < 16 then number 16 2 cs
      else go (encode ['\\', c]) cs
  | fuel + 1, c :: cs =>
    match unescape escapes fuel cs with
    | (more, ends) => (encode [c] ++ more, ends)

/-- The bytes of a text with backslashes, and whether the output ends there. -/
def unescaped (escapes : Escapes) (cs : List Char) : List UInt8 × Bool :=
  unescape escapes (cs.length + 1) cs

/-! ## Words -/

/-- The escapes in words that the shell echoes. -/
def echoEscapes : Escapes :=
  { zero := true, octal := true, stop := true }

/-- Writes words with blanks between them and a line end behind them, unless it is silent there. A
word may end the output. -/
def echoFrom (silent : Bool) : List (List Char) → List UInt8
  | [] => if silent then [] else [10]
  | word :: words =>
    match unescaped echoEscapes word with
    | (bytes, true) => bytes
    | (bytes, false) =>
      bytes ++ (if words.isEmpty then [] else [32]) ++ echoFrom silent words

/-- What the shell's own echo writes. -/
def echo : List (List Char) → List UInt8
  | ['-', 'n'] :: words => echoFrom true words
  | words => echoFrom false words

/-! ## Numbers -/

/-- Reads a number as far as it goes: a sign, and digits in the base that they begin with. The
answer is none where there is no digit. -/
def readNumber (cs : List Char) : Option (Int × List Char) :=
  let cs := cs.dropWhile fun c => " \t\n\r\x0b\x0c".toList.contains c
  let (negative, cs) := match cs with
    | '-' :: cs => (true, cs)
    | '+' :: cs => (false, cs)
    | cs => (false, cs)
  let sign (n : Nat) : Int := if negative then -Int.ofNat n else Int.ofNat n
  let read (base : Nat) (cs : List Char) : Int × List Char :=
    match readDigits base cs.length 0 cs with
    | (n, rest) => (sign n, rest)
  match cs with
  | '0' :: x :: d :: rest =>
    if (x = 'x' ∨ x = 'X') ∧ digitValue d < 16 then some (read 16 (d :: rest))
    else some (read 8 cs)
  | '0' :: _ => some (read 8 cs)
  | d :: _ => if d.isDigit then some (read 10 cs) else none
  | [] => none

/-- The digits of a number in a base. -/
def digits (base : Nat) (n : Nat) : List Char :=
  Nat.toDigits base n

/-- The largest number and the smallest one of sixty-four bits. -/
def clampSigned (n : Int) : Int :=
  max (-9223372036854775808) (min n 9223372036854775807)

/-- A number of sixty-four bits without a sign. -/
def asUnsigned (n : Int) : Nat :=
  if 18446744073709551615 < n then 18446744073709551615 else (n % 18446744073709551616).toNat

/-! ## Formats -/

/-- How a directive lays out what it writes. -/
structure Layout where
  left : Bool := false
  zeros : Bool := false
  plus : Bool := false
  blank : Bool := false
  other : Bool := false
  width : Nat := 0
  precision : Option Nat := none

namespace Layout

/-- Fills up bytes to the width. -/
def fill (layout : Layout) (zeros : Bool) (head bytes : List UInt8) : List UInt8 :=
  let missing := layout.width - (head.length + bytes.length)
  if layout.left then head ++ bytes ++ List.replicate missing 32
  else if zeros then head ++ List.replicate missing 48 ++ bytes
  else List.replicate missing 32 ++ head ++ bytes

/-- Lays out a text. -/
def text (layout : Layout) (bytes : List UInt8) : List UInt8 :=
  layout.fill false [] ((layout.precision.map bytes.take).getD bytes)

/-- Lays out digits behind a sign or a mark of their base. -/
def number (layout : Layout) (head : List Char) (ds : List Char) : List UInt8 :=
  let ds := match layout.precision with
    | some p => if p = 0 ∧ ds = ['0'] then [] else List.replicate (p - ds.length) '0' ++ ds
    | none => ds
  layout.fill (layout.zeros && layout.precision.isNone) (encode head) (encode ds)

/-- Lays out a number with a sign. -/
def signed (layout : Layout) (n : Int) : List UInt8 :=
  let head :=
    if n < 0 then ['-'] else if layout.plus then ['+'] else if layout.blank then [' '] else []
  layout.number head (digits 10 n.natAbs)

/-- Lays out a number without a sign, in the base of a letter. -/
def unsigned (layout : Layout) (letter : Char) (n : Nat) : List UInt8 :=
  match letter with
  | 'o' =>
    let ds := digits 8 n
    layout.number [] (if layout.other ∧ ds.head? ≠ some '0' then '0' :: ds else ds)
  | 'x' => layout.number (if layout.other ∧ n ≠ 0 then ['0', 'x'] else []) (digits 16 n)
  | 'X' =>
    layout.number (if layout.other ∧ n ≠ 0 then ['0', 'X'] else []) ((digits 16 n).map Char.toUpper)
  | _ => layout.number [] (digits 10 n)

end Layout

/-- How far a format has been written. -/
structure Written where
  bytes : List UInt8 := []
  /-- Arguments that are not numbers, and whether they begin with one. -/
  complaints : List (List Char × Bool) := []
  /-- The complaint that ends the command. -/
  fault : Option (List Char) := none
  args : List (List Char) := []
  /-- An argument has ended the output. -/
  ended : Bool := false
  /-- The escapes in the format. -/
  escapes : Escapes := { octal := true }

namespace Written

/-- Adds bytes. -/
def add (w : Written) (bytes : List UInt8) : Written :=
  { w with bytes := w.bytes ++ bytes }

/-- The next argument and what is left. -/
def shift (w : Written) : List Char × Written :=
  match w.args with
  | [] => ([], w)
  | arg :: args => (arg, { w with args })

/-- The next argument as a number. One that is not a number counts as far as it goes, with a
complaint. -/
def number (w : Written) : Int × Written :=
  match w.shift with
  | ([], w) => (0, w)
  | ('"' :: c :: _, w) | ('\'' :: c :: _, w) => (Int.ofNat ((encode [c]).head?.getD 0).toNat, w)
  | (arg, w) =>
    let complain (begins : Bool) : Written :=
      { w with complaints := w.complaints ++ [(arg, begins)] }
    match readNumber arg with
    | none => (0, complain false)
    | some (n, []) => (n, w)
    | some (n, _) => (n, complain true)

end Written

/-- Reads the digits of a width or a precision, or takes it from the arguments. -/
def readSize (w : Written) (cs : List Char) : Nat × Written × List Char :=
  match cs with
  | '*' :: cs => match w.number with | (n, w) => (n.toNat, w, cs)
  | cs => match readDigits 10 cs.length 0 cs with | (n, cs) => (n, w, cs)

/-- The layout that letters before a width ask for. -/
def readFlags (cs : List Char) : Layout × List Char :=
  let flags := cs.takeWhile fun c => "#-+ 0".toList.contains c
  ({ left := flags.contains '-', zeros := flags.contains '0', plus := flags.contains '+',
     blank := flags.contains ' ', other := flags.contains '#' }, cs.drop flags.length)

/-- Carries out the directive behind a percent sign. -/
def directive (w : Written) (cs : List Char) : Written × List Char :=
  let (layout, rest) := readFlags cs
  let (width, w, rest) := readSize w rest
  let layout := { layout with width }
  let (layout, w, rest) := match rest with
    | '.' :: rest =>
      match readSize w rest with
      | (p, w, rest) => ({ layout with precision := some p }, w, rest)
    | rest => (layout, w, rest)
  match rest with
  | [] => ({ w with fault := some "missing format character".toList }, [])
  | letter :: rest =>
    match letter with
    | 's' => match w.shift with | (arg, w) => (w.add (layout.text (encode arg)), rest)
    | 'b' =>
      match w.shift with
      | (arg, w) =>
        match unescaped echoEscapes arg with
        | (bytes, ends) => ({ w.add (layout.text bytes) with ended := ends }, rest)
    | 'c' =>
      match w.shift with
      | (arg, w) =>
        let first := if arg = [] then [0] else (encode arg).take 1
        (w.add ({ layout with precision := none }.text first), rest)
    | 'd' | 'i' => match w.number with | (n, w) => (w.add (layout.signed (clampSigned n)), rest)
    | 'o' | 'u' | 'x' | 'X' =>
      match w.number with | (n, w) => (w.add (layout.unsigned letter (asUnsigned n)), rest)
    | _ =>
      let taken := cs.take (cs.length - rest.length)
      ({ w with fault := some ('%' :: taken ++ ": invalid directive".toList) }, [])

/-- Writes a format once. -/
def formatOnce : Nat → Written → List Char → Written
  | 0, w, _ => w
  | _, w, [] => w
  | fuel + 1, w, '%' :: '%' :: cs => formatOnce fuel (w.add [37]) cs
  | fuel + 1, w, '%' :: cs =>
    match directive w cs with
    | (w, rest) => if w.fault.isSome ∨ w.ended then w else formatOnce fuel w rest
  | fuel + 1, w, '\\' :: c :: cs =>
    let taken :=
      if digitValue c < 8 then (cs.take 2).takeWhile fun d => decide (digitValue d < 8)
      else if c = 'x' then (cs.take 2).takeWhile fun d => decide (digitValue d < 16)
      else []
    match unescaped w.escapes ('\\' :: c :: taken) with
    | (bytes, ends) =>
      if ends then { w.add bytes with ended := true }
      else formatOnce fuel (w.add bytes) (cs.drop taken.length)
  | fuel + 1, w, c :: cs => formatOnce fuel (w.add (encode [c])) cs

/-- Writes a format until its arguments are used up. -/
def formatAll (cs : List Char) : Nat → Written → Written
  | 0, w => w
  | fuel + 1, w =>
    let after := formatOnce (cs.length + 1) w cs
    if after.fault.isSome ∨ after.ended ∨ after.args.isEmpty ∨
        after.args.length = w.args.length then after
    else formatAll cs fuel after

/-- Writes a format with arguments. -/
def format (cs : List Char) (args : List (List Char)) : Written :=
  formatAll cs (args.length + 1) { args }

end InlineRepl.Rehearsal.Shell
