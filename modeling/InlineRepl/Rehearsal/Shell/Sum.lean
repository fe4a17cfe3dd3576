import InlineRepl.Rehearsal.Shell.Printing
import InlineRepl.Rehearsal.Shell.Syntax

/-!
# Arithmetic

The value of an arithmetic expression: whole numbers of sixty-four bits, the operators in their
order of precedence, choices and assignments. An operand that does not count is read without being
computed.
-/

namespace InlineRepl.Rehearsal.Shell.Sum

/-- A token of an expression. -/
inductive Token where
  | number (n : Int)
  | name (cs : List Char)
  | mark (text : String)
  | done
  deriving Repr, DecidableEq

/-- The marks of expressions, the longer ones first. -/
def marks : List String :=
  ["<<=", ">>=", "<<", ">>", "<=", ">=", "==", "!=", "&&", "||", "*=", "/=", "%=", "+=", "-=", "&=",
    "^=", "|=", "=", "<", ">", "+", "-", "*", "/", "%", "&", "^", "|", "!", "~", "?", ":", "(", ")"]

/-- How far an expression has been computed. -/
structure State where
  rest : List Char
  /-- The token that comes next. -/
  next : Token := .done
  /-- The values of names. -/
  values : List (List Char × List Char)
  /-- The names that have been assigned, the last one first. -/
  assigned : List (List Char × List Char) := []

/-- Computations that may fail. -/
abbrev Compute := StateT State (Except String)

/-- Reads the token that comes next. -/
def advance : Compute Unit := do
  let s ← get
  let cs := s.rest.dropWhile fun c => c == ' ' || c == '\t' || c == '\n'
  match cs with
  | [] => set { s with rest := [], next := .done }
  | c :: _ =>
    if c.isDigit then
      match readNumber cs with
      | some (n, rest) => set { s with rest, next := .number (clampSigned n) }
      | none => throw "expecting primary"
    else if beginsName c then
      set { s with rest := cs.dropWhile isNameChar, next := .name (cs.takeWhile isNameChar) }
    else
      match marks.find? fun mark => mark.toList.isPrefixOf cs with
      | some mark => set { s with rest := cs.drop mark.length, next := .mark mark }
      | none => set { s with rest := cs.drop 1, next := .mark (String.ofList [c]) }

/-- Cuts a number down to sixty-four bits. -/
def wrap (n : Int) : Int :=
  Int.bmod n 18446744073709551616

/-- A truth value as a number. -/
def ofBool (b : Bool) : Int :=
  if b then 1 else 0

/-- Words of sixty-four bits combined bit by bit. -/
def bitwise (combine : Nat → Nat → Nat) (a b : Int) : Int :=
  wrap (Int.ofNat (combine (asUnsigned (wrap a)) (asUnsigned (wrap b))))

/-- The rank of an operator; one of a lower rank binds tighter. -/
def rank? : String → Option Nat
  | "*" | "/" | "%" => some 0
  | "+" | "-" => some 1
  | "<<" | ">>" => some 2
  | "<" | "<=" | ">" | ">=" => some 3
  | "==" | "!=" => some 4
  | "&" => some 5
  | "^" => some 6
  | "|" => some 7
  | _ => none

/-- Carries out an operator. -/
def apply (mark : String) (a b : Int) : Except String Int :=
  match mark with
  | "*" => .ok (wrap (a * b))
  | "/" => if b = 0 then .error "division by zero" else .ok (wrap (Int.tdiv a b))
  | "%" => if b = 0 then .error "division by zero" else .ok (Int.tmod a b)
  | "+" => .ok (wrap (a + b))
  | "-" => .ok (wrap (a - b))
  | "<<" => .ok (wrap (a * Int.pow 2 (b % 64).toNat))
  | ">>" => .ok (Int.fdiv a (Int.pow 2 (b % 64).toNat))
  | "<" => .ok (ofBool (decide (a < b)))
  | "<=" => .ok (ofBool (decide (a ≤ b)))
  | ">" => .ok (ofBool (decide (b < a)))
  | ">=" => .ok (ofBool (decide (b ≤ a)))
  | "==" => .ok (ofBool (decide (a = b)))
  | "!=" => .ok (ofBool (decide (a ≠ b)))
  | "&" => .ok (bitwise Nat.land a b)
  | "^" => .ok (bitwise Nat.xor a b)
  | _ => .ok (bitwise Nat.lor a b)

/-- A fault that is not about the expression itself. -/
def illegal (text : List Char) : String :=
  "Illegal number: " ++ String.ofList text

/-- The number that a text spells. -/
def ofText (cs : List Char) : Except String Int :=
  match readNumber cs with
  | some (n, rest) =>
    if rest.all fun c => c == ' ' || c == '\t' || c == '\n' then .ok (clampSigned n)
    else .error (illegal cs)
  | none => if cs.all fun c => c == ' ' then .ok 0 else .error (illegal cs)

/-- The value of a name. -/
def valueOf (name : List Char) : Compute Int := do
  let s ← get
  StateT.lift (ofText (((s.assigned.lookup name).or (s.values.lookup name)).getD []))

mutual

/-- Computes an operand. -/
def primary : Nat → Bool → Compute Int
  | 0, _ => throw "expecting primary"
  | fuel + 1, counts => do
    match (← get).next with
    | .number n =>
      advance
      return n
    | .name name =>
      advance
      if counts then valueOf name else return 0
    | .mark "(" =>
      advance
      let n ← assignment fuel counts
      match (← get).next with
      | .mark ")" =>
        advance
        return n
      | _ => throw "expecting ')'"
    | .mark "+" =>
      advance
      primary fuel counts
    | .mark "-" =>
      advance
      return wrap (-(← primary fuel counts))
    | .mark "!" =>
      advance
      return ofBool (decide ((← primary fuel counts) = 0))
    | .mark "~" =>
      advance
      return -(← primary fuel counts) - 1
    | _ => throw "expecting primary"

/-- Computes operators of at most a rank, from a first operand on. -/
def operators : Nat → Bool → Nat → Int → Compute Int
  | 0, _, _, _ => throw "expecting primary"
  | fuel + 1, counts, most, a => do
    match (← get).next with
    | .mark mark =>
      match rank? mark with
      | some rank =>
        if rank ≤ most then
          advance
          let b ← primary fuel counts
          let b ← if rank = 0 then pure b else operators fuel counts (rank - 1) b
          let a ← if counts then StateT.lift (apply mark a b) else pure b
          operators fuel counts most a
        else return a
      | none => return a
    | _ => return a

/-- Computes a conjunction. -/
def conjunction : Nat → Bool → Compute Int
  | 0, _ => throw "expecting primary"
  | fuel + 1, counts => do
    let a ← operators fuel counts 7 (← primary fuel counts)
    match (← get).next with
    | .mark "&&" =>
      advance
      let b ← conjunction fuel (counts && a != 0)
      return ofBool (a != 0 && b != 0)
    | _ => return a

/-- Computes a disjunction. -/
def disjunction : Nat → Bool → Compute Int
  | 0, _ => throw "expecting primary"
  | fuel + 1, counts => do
    let a ← conjunction fuel counts
    match (← get).next with
    | .mark "||" =>
      advance
      let b ← disjunction fuel (counts && a == 0)
      return ofBool (a != 0 || b != 0)
    | _ => return a

/-- Computes a choice. -/
def choice : Nat → Bool → Compute Int
  | 0, _ => throw "expecting primary"
  | fuel + 1, counts => do
    let a ← disjunction fuel counts
    match (← get).next with
    | .mark "?" =>
      advance
      let b ← assignment fuel (counts && a != 0)
      match (← get).next with
      | .mark ":" =>
        advance
        let c ← choice fuel (counts && a == 0)
        return if a != 0 then b else c
      | _ => throw "expecting ':'"
    | _ => return a

/-- Computes an assignment. -/
def assignment : Nat → Bool → Compute Int
  | 0, _ => throw "expecting primary"
  | fuel + 1, counts => do
    let before ← get
    match before.next with
    | .name name =>
      advance
      match (← get).next with
      | .mark mark =>
        let operator := String.ofList mark.toList.dropLast
        if mark = "=" ∨ (mark.toList.getLast? = some '=' ∧ (rank? operator).isSome ∧
            (rank? mark).isNone) then
          advance
          let b ← assignment fuel counts
          if counts then
            let n ← if mark = "=" then pure b
              else do StateT.lift (apply operator (← valueOf name) b)
            modify fun s => { s with assigned := (name, shown n) :: s.assigned }
            return n
          else return b
        else
          set before
          choice fuel counts
      | _ =>
        set before
        choice fuel counts
    | _ => choice fuel counts

end

/-- The value of an expression, and the names that it assigns, the last one first. The fault is a
whole complaint. -/
def evaluate (values : List (List Char × List Char)) (cs : List Char) :
    Except String (Int × List (List Char × List Char)) :=
  let compute : Compute Int := do
    advance
    let n ← assignment (2 * cs.length + 16) true
    match (← get).next with
    | .done => return n
    | _ => throw "expecting EOF"
  if cs.all fun c => c == ' ' || c == '\t' || c == '\n' then .ok (0, [])
  else
    match compute.run { rest := cs, values } with
    | .ok (n, s) => .ok (n, s.assigned)
    | .error fault =>
      if fault.startsWith "Illegal" then .error fault
      else .error ("arithmetic expression: " ++ fault ++ ": \"" ++ String.ofList cs ++ "\"")

end InlineRepl.Rehearsal.Shell.Sum
