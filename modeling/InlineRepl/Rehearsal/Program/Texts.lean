import InlineRepl.Rehearsal.Program.Basic

/-!
# Programs for texts

Programs that copy texts, take their ends, count them, and replace single bytes of them.
-/

namespace InlineRepl.Rehearsal.Program

open Shell

/-! ## Copying -/

/-- What is read from the input, in parts with the times at which they can be read. -/
def inputParts : Work (List (Nat × List UInt8)) := do
  match (← get).streams.lookup 0 with
  | some number => takeFrom number id
  | none => return []

/-- Waits until nobody writes to the input any more. -/
def waitForInput : Work Unit := do
  match (← get).streams.lookup 0 with
  | some number => waitForEnd number
  | none => pure ()

/-- The output goes to a file that holds something already. -/
def feedsItself (file : String) : Work Bool := do
  let s ← get
  match s.file? 1, (s.tree.resolve true ⟨file⟩).toOption with
  | some (_, { channel := .file place, .. }), some source =>
    return decide (source = place) && (s.tree.readBytes ⟨file⟩).toOption != some []
  | _, _ => return false

/-- Writes files. -/
def cat (me : String) (args : List String) : Work Nat :=
  withCall me (.of "u") args fun call => do
    let files := if call.operands.isEmpty then ["-"] else call.operands
    forEach files fun file => do
      match ← readFault? file with
      | some fault =>
        warn me (file ++ ": " ++ fault)
        return 1
      | none =>
        if file = "-" then
          let worst ← forEach (← inputParts) fun (time, bytes) => do
            waitUntil time
            put me bytes
          waitForInput
          return worst
        else if ← feedsItself file then
          warn me (file ++ ": input file is output file")
          return 1
        else put me (((← source file).toOption).getD [])

/-! ## Ends of texts -/

/-- How much of a text is taken: lines or bytes, and how many. -/
structure Amount where
  bytes : Bool := false
  count : Nat := 10

/-- The amount that options ask for. The fault is a complaint. -/
def Amount.read (call : Call) : Except String Amount :=
  match call.last? ['n', 'c'] with
  | none => .ok {}
  | some letter =>
    let text := (call.value? letter).getD ""
    match nat? text with
    | some count => .ok { bytes := letter == 'c', count }
    | none =>
      .error ("invalid number of " ++ (if letter = 'c' then "bytes" else "lines") ++ ": " ++
        quoted text)

/-- The front of a text. -/
def front (amount : Amount) (bytes : List UInt8) : List UInt8 :=
  if amount.bytes then bytes.take amount.count
  else ((linesWithEnds bytes).take amount.count).flatten

/-- The back of a text. -/
def back (amount : Amount) (bytes : List UInt8) : List UInt8 :=
  if amount.bytes then bytes.drop (bytes.length - amount.count)
  else
    let lines := linesWithEnds bytes
    (lines.drop (lines.length - amount.count)).flatten

/-- Writes a part of each file. -/
def part (me : String) (args : List String) (choose : Amount → List UInt8 → List UInt8) :
    Work Nat :=
  withCall me (.of "n:c:") args fun call => do
    match Amount.read call with
    | .error fault =>
      warn me fault
      return 1
    | .ok amount =>
      let files := if call.operands.isEmpty then ["-"] else call.operands
      forEach files.zipIdx fun (file, i) => do
        match ← source file with
        | .error fault =>
          warn me ("cannot open " ++ quoted file ++ " for reading: " ++ fault)
          return 1
        | .ok bytes =>
          if 1 < files.length then
            let _ ← putText me ((if i = 0 then "" else "\n") ++ "==> " ++ file ++ " <==\n")
          put me (choose amount bytes)

/-! ## Counting -/

/-- White space. -/
def isSpace (b : UInt8) : Bool :=
  b == 32 || (9 ≤ b && b ≤ 13)

/-- The number of words. -/
def wordCount (bytes : List UInt8) : Nat :=
  (bytes.foldl (fun (count, inside) b =>
    if isSpace b then (count, false) else (if inside then count else count + 1, true))
    (0, false)).1

/-- Counts lines, words and bytes. -/
def wc (me : String) (args : List String) : Work Nat :=
  withCall me (.of "lwc") args fun call => do
    let files := if call.operands.isEmpty then ["-"] else call.operands
    let (read, status) ← sources me files id
    let chosen := ['l', 'w', 'c'].filter fun c => call.options.isEmpty || call.has c
    let counts (bytes : List UInt8) : List Nat := chosen.map fun c =>
      match c with
      | 'l' => (bytes.filter (· == 10)).length
      | 'w' => wordCount bytes
      | _ => bytes.length
    -- Columns are as wide as the greatest size, and wider where a size is not known before.
    let total := (read.flatMap Prod.snd).length
    let known := files.all (· != "-")
    let width := if files.length = 1 ∧ chosen.length = 1 then 1
      else max (toString total).length (if known then 1 else 7)
    let line (numbers : List Nat) (name : String) : List UInt8 :=
      List.intercalate [32] (numbers.map (alignedNumber width)) ++
        Text.bytesOf (if name = "-" then "\n" else " " ++ name ++ "\n")
    for (file, bytes) in read do
      let _ ← put me (line (counts bytes) file)
    if 1 < files.length then
      let sums := chosen.zipIdx.map fun (_, i) =>
        (read.map fun entry => (counts entry.2).getD i 0).foldl (· + ·) 0
      let _ ← put me (line sums "total")
    return status

/-! ## Single bytes -/

/-- A byte that may be spelled as an escape, and what follows it. -/
def setByte : List UInt8 → Option (UInt8 × List UInt8)
  | [] => none
  | 92 :: d :: rest =>
    let digits := ((d :: rest).take 3).takeWhile fun b => decide (48 ≤ b ∧ b < 56)
    if digits = [] then some ((escaped? (Char.ofNat d.toNat)).getD d, rest)
    else some (digits.foldl (fun n b => n * 8 + (b - 48)) 0, (d :: rest).drop digits.length)
  | b :: rest => some (b, rest)

/-- The bytes of a set: escapes and ranges. The fault is a complaint. -/
def setBytes : Nat → List UInt8 → Except String (List UInt8)
  | 0, _ => .ok []
  | fuel + 1, bytes =>
    match setByte bytes with
    | none => .ok []
    | some (low, 45 :: c :: rest) =>
      match setByte (c :: rest) with
      | none => (setBytes fuel (45 :: c :: rest)).map (low :: ·)
      | some (high, rest) =>
        if high < low then
          .error ("range-endpoints of '" ++ String.ofList (charsOf [low]) ++ "-" ++
            String.ofList (charsOf [high]) ++ "' are in reverse collating sequence order")
        else
          let range := (List.range (high.toNat + 1 - low.toNat)).map fun i =>
            UInt8.ofNat (low.toNat + i)
          (setBytes fuel rest).map (range ++ ·)
    | some (b, rest) => (setBytes fuel rest).map (b :: ·)

/-- Bytes of a set that follow an equal one are left out. -/
def squeezed (set : List UInt8) : List UInt8 → List UInt8
  | a :: b :: rest =>
    if a = b ∧ set.contains a then squeezed set (b :: rest) else a :: squeezed set (b :: rest)
  | bytes => bytes

/-- Replaces, deletes or squeezes the bytes of the input. -/
def tr (me : String) (args : List String) : Work Nat :=
  withCall me { Grammar.of "ds" with strict := true } args fun call => do
    let read (text : String) : Except String (List UInt8) :=
      let bytes := Text.bytesOf text
      setBytes (bytes.length + 1) bytes
    match call.operands, call.operands.mapM read with
    | [], _ => advise me "missing operand"
    | _ :: _ :: extra :: _, _ => advise me ("extra operand " ++ quoted extra)
    | _, .error fault =>
      warn me fault
      return 1
    | _, .ok sets =>
      let chosen := sets.headD []
      let other := sets.getD 1 []
      let bytes ← match (← get).streams.lookup 0 with
        | some number => readAll number
        | none => pure []
      let replaced (b : UInt8) : UInt8 :=
        match chosen.idxOf? b with
        | some i => (other[i]?).getD (other.getLast?.getD b)
        | none => b
      let changed := if call.has 'd' then bytes.filter fun b => !chosen.contains b
        else bytes.map replaced
      put me (if call.has 's' then squeezed (if other = [] then chosen else other) changed
        else changed)

end InlineRepl.Rehearsal.Program
