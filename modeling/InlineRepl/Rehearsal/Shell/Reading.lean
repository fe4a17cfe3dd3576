import InlineRepl.Rehearsal.Shell.Syntax
import InlineRepl.Text.Lines

/-!
# Reading scripts

A script is read command by command: `Input.next` reads one complete command, up to the end of its
last line, so that what stands before a mistake is carried out before the mistake is met.

The fuel of the readers bounds how deep they go, which is no deeper than a few steps a character.
-/

namespace InlineRepl.Rehearsal.Shell

/-- A token of a script. -/
inductive Token where
  | word (word : Word)
  | keyword (text : String)
  | mark (text : String)
  | newline
  | redirect (stream : Nat) (mark : String)
  | fileEnd

/-- How a token is named in a complaint. -/
def Token.shown : Token → String
  | word _ => "word"
  | keyword text => "\"" ++ text ++ "\""
  | mark text => "\"" ++ text ++ "\""
  | newline => "newline"
  | redirect .. => "redirection"
  | fileEnd => "end of file"

/-- A text behind a command that is still to come. -/
structure Awaited where
  number : Nat
  endMark : List Char
  /-- Tabs at the front of its lines are dropped. -/
  tabless : Bool
  /-- It is taken as it is. -/
  literal : Bool

/-- What is left of a script. -/
structure Input where
  rest : List Char
  /-- How many characters the whole script has. -/
  size : Nat
  line : Nat := 1
  /-- A token that is read again. -/
  pushed : Option Token := none
  awaited : List Awaited := []
  /-- The texts behind commands, by number. -/
  texts : List (Nat × Word) := []
  /-- The next number of such a text. -/
  count : Nat := 0

/-- Why a script cannot be read. -/
structure Mistake where
  line : Nat
  message : String
  deriving Repr, DecidableEq

/-- Readers of a script. -/
abbrev Reader := StateT Input (Except Mistake)

namespace Reader

/-- Gives up. -/
def fail {α : Type} (message : String) : Reader α := do
  throw { line := (← get).line, message }

/-- Gives up at a token. -/
def unexpected {α : Type} (token : Token) : Reader α :=
  fail (token.shown ++ " unexpected")

/-- Gives up at a token that stands in place of another. -/
def expecting {α : Type} (token : Token) (wanted : String) : Reader α :=
  fail (token.shown ++ " unexpected (expecting " ++ wanted ++ ")")

/-- The next character, not yet taken. -/
def peek : Reader (Option Char) := do
  return (← get).rest.head?

/-- Whether the next characters are these. -/
def sees (cs : List Char) : Reader Bool := do
  return cs.isPrefixOf (← get).rest

/-- Takes a character. -/
def take : Reader (Option Char) := do
  let input ← get
  match input.rest with
  | [] => return none
  | c :: rest =>
    set { input with rest, line := if c = '\n' then input.line + 1 else input.line }
    return some c

/-- Takes some characters. -/
def drop : Nat → Reader Unit
  | 0 => pure ()
  | n + 1 => do
    let _ ← take
    drop n

/-- Takes the characters that pass a test. -/
def takeWhile (keep : Char → Bool) : Reader (List Char) := do
  let cs := (← get).rest.takeWhile keep
  drop cs.length
  return cs

/-- Puts a token back. -/
def push (token : Token) : Reader Unit :=
  modify fun input => { input with pushed := some token }

end Reader

open Reader

/-! ## Words -/

/-- Where a piece stands. -/
inductive Mode where
  /-- Outside of quotes. -/
  | open_
  /-- Inside double quotes. -/
  | quotes
  /-- Inside the braces of a parameter, quoted or not. -/
  | braces (quoted : Bool)
  /-- Inside an arithmetic expression, between so many brackets. -/
  | sum (depth : Nat)
  /-- In a text behind a command. -/
  | text
  deriving DecidableEq

/-- Whether characters stand for themselves there. -/
def Mode.isQuoted : Mode → Bool
  | open_ => false
  | braces quoted => quoted
  | _ => true

/-- A character that ends a word. -/
def endsWord (c : Char) : Bool :=
  "\n;&|()<> \t".toList.contains c

/-- The characters that a backslash takes the meaning of, inside quotes. -/
def Mode.escapable : Mode → List Char
  | quotes => "$`\"\\".toList
  | braces true => "$`\"\\\x7d".toList
  | _ => "$`\\".toList

/-- The names that one character makes. -/
def specialNames : List Char :=
  "?#@*!$-".toList

/-- The text between backquotes, without the backslashes that belong to it. -/
def backquoted (quoted : Bool) : Nat → Reader (List Char)
  | 0 => fail "EOF in backquote substitution"
  | fuel + 1 => do
    match ← take with
    | none => fail "EOF in backquote substitution"
    | some '\x60' => return []
    | some '\\' =>
      match ← take with
      | none => fail "EOF in backquote substitution"
      | some '\n' => backquoted quoted fuel
      | some c =>
        let rest ← backquoted quoted fuel
        if c = '\x60' ∨ c = '\\' ∨ c = '$' ∨ (quoted ∧ c = '"') then return c :: rest
        else return '\\' :: c :: rest
    | some c => return c :: (← backquoted quoted fuel)

/-- The text up to the next single quote. -/
def singleQuoted : Nat → Reader (List Char)
  | 0 => fail "Unterminated quoted string"
  | fuel + 1 => do
    match ← take with
    | none => fail "Unterminated quoted string"
    | some '\'' => return []
    | some c => return c :: (← singleQuoted fuel)

/-- Characters that stand for themselves; none of them are a pair of quotes. -/
def quotedPieces (cs : List Char) : Word :=
  if cs = [] then [.quotes] else cs.map fun c => .char c true

/-- Characters of a token that have no part in a word. -/
def skipBlanks : Nat → Reader Unit
  | 0 => pure ()
  | fuel + 1 => do
    match (← get).rest with
    | ' ' :: _ | '\t' :: _ => do
      drop 1
      skipBlanks fuel
    | '\\' :: '\n' :: _ => do
      drop 2
      skipBlanks fuel
    | '#' :: _ => do
      let _ ← takeWhile (· != '\n')
      pure ()
    | _ => pure ()

/-- The marks of the shell, the longer ones first. -/
def marks : List String :=
  ["&&", "||", ";;", ";", "&", "|", "(", ")"]

/-- The marks of redirections, the longer ones first. -/
def redirectionMarks : List String :=
  ["<<-", ">>", ">&", ">|", "<<", "<&", "<>", ">", "<"]

/-- The first of the marks that comes next. -/
def seesMark (marks : List String) : Reader (Option String) := do
  let rest := (← get).rest
  return marks.find? fun mark => mark.toList.isPrefixOf rest

/-- The words that have a meaning where a command begins. -/
def keywords : List String :=
  ["!", "case", "do", "done", "elif", "else", "esac", "fi", "for", "if", "in", "then", "until",
    "while", "\x7b", "\x7d"]

/-- The keyword that a token is, where keywords count. -/
def Token.asKeyword (token : Token) : Token :=
  match token with
  | word w =>
    match (bare? w).map String.ofList with
    | some text => if keywords.contains text then .keyword text else token
    | none => token
  | token => token

/-- A list of commands ends at this token. -/
def Token.endsList : Token → Bool
  | fileEnd => true
  | mark text => [")", ";;"].contains text
  | keyword text => ["do", "done", "elif", "else", "esac", "fi", "then", "\x7d"].contains text
  | _ => false

mutual

/-- Reads the pieces of a word. -/
def pieces : Nat → Mode → Reader Word
  | 0, _ => fail "word too deep"
  | fuel + 1, mode => do
    let plain (c : Char) : Reader Word := do
      return .char c mode.isQuoted :: (← pieces fuel mode)
    let more (front : Word) : Reader Word := do
      return front ++ (← pieces fuel mode)
    match ← peek with
    | none =>
      match mode with
      | .open_ | .text => return []
      | .quotes => fail "Unterminated quoted string"
      | .braces _ => fail "Missing '\x7d'"
      | .sum _ => fail "Missing '))'"
    | some c =>
      if mode = .open_ ∧ endsWord c then return []
      else do
        let _ ← take
        match c, mode with
        | '"', .quotes => return []
        | '\x7d', .braces _ => return []
        | ')', .sum 0 =>
          if ← sees [')'] then
            drop 1
            return []
          else fail "Missing '))'"
        | ')', .sum (depth + 1) => return .char c true :: (← pieces fuel (.sum depth))
        | '(', .sum depth => return .char c true :: (← pieces fuel (.sum (depth + 1)))
        | '"', .sum _ => pieces fuel mode
        | '\\', _ =>
          match ← take with
          | none => more [.char '\\' true]
          | some '\n' => pieces fuel mode
          | some d =>
            if mode = .open_ ∨ mode = .braces false ∨ mode.escapable.contains d then
              more [.char d true]
            else more [.char '\\' true, .char d true]
        | '\'', .open_ | '\'', .braces false => more (quotedPieces (← singleQuoted (fuel + 1)))
        | '"', .open_ | '"', .braces _ =>
          match ← pieces fuel .quotes with
          | [] => more [.quotes]
          | inside => more inside
        | '$', _ => more (← dollar fuel mode.isQuoted)
        | '\x60', _ =>
          let text ← backquoted (mode = .quotes) (fuel + 1)
          let outer ← get
          set { outer with rest := text, line := 1, pushed := none, awaited := [] }
          let script ← wholeText fuel
          let inner ← get
          set { inner with rest := outer.rest, line := outer.line, pushed := none,
                           awaited := outer.awaited }
          more [.output script mode.isQuoted]
        | c, _ => plain c

/-- Reads what follows a dollar sign. -/
def dollar : Nat → Bool → Reader Word
  | 0, _ => fail "word too deep"
  | fuel + 1, quoted => do
    if ← sees ['(', '('] then
      drop 2
      return [.sum (← pieces fuel (.sum 0)) quoted]
    match ← peek with
    | some '(' =>
      drop 1
      let outer ← get
      set { outer with pushed := none, awaited := [] }
      let script ← list fuel 2
      match ← token fuel false false with
      | .mark ")" =>
        modify fun inner => { inner with awaited := outer.awaited }
        return [.output script quoted]
      | t => expecting t "\")\""
    | some '\x7b' =>
      drop 1
      braced fuel quoted
    | some c =>
      if c.isDigit || specialNames.contains c then
        drop 1
        return [.param [c] .none quoted]
      else if beginsName c then return [.param (← takeWhile isNameChar) .none quoted]
      else return [.char '$' quoted]
    | none => return [.char '$' quoted]

/-- Reads what follows the brace of a parameter. -/
def braced : Nat → Bool → Reader Word
  | 0, _ => fail "word too deep"
  | fuel + 1, quoted => do
    let rest := (← get).rest
    let name (cs : List Char) : List Char :=
      match cs with
      | c :: _ =>
        if c.isDigit then cs.takeWhile Char.isDigit
        else if specialNames.contains c then [c]
        else cs.takeWhile isNameChar
      | [] => []
    match rest with
    | '#' :: '\x7d' :: _ =>
      drop 2
      return [.param ['#'] .none quoted]
    | '#' :: cs =>
      let measured := name cs
      if measured ≠ [] ∧ (cs.drop measured.length).head? = some '\x7d' then
        drop (measured.length + 2)
        return [.param measured .length quoted]
      else
        drop 1
        edited fuel quoted ['#']
    | cs =>
      let found := name cs
      drop found.length
      edited fuel quoted found

/-- Reads what follows the name in the braces of a parameter. -/
def edited : Nat → Bool → List Char → Reader Word
  | 0, _, _ => fail "word too deep"
  | fuel + 1, quoted, name => do
    let instead (mark : Char) (alsoEmpty : Bool) (taken : Nat) : Reader Word := do
      drop taken
      return [.param name (.instead mark alsoEmpty (← pieces fuel (.braces quoted))) quoted]
    let trim (front longest : Bool) (taken : Nat) : Reader Word := do
      drop taken
      return [.param name (.trim front longest (← pieces fuel (.braces false))) quoted]
    let bad : Reader Word := do
      let _ ← pieces fuel (.braces quoted)
      return [.param name .bad quoted]
    if name = [] then bad
    else
      match (← get).rest with
      | '\x7d' :: _ =>
        drop 1
        return [.param name .none quoted]
      | ':' :: c :: _ => if "-=?+".toList.contains c then instead c true 2 else bad
      | '#' :: '#' :: _ => trim true true 2
      | '#' :: _ => trim true false 1
      | '%' :: '%' :: _ => trim false true 2
      | '%' :: _ => trim false false 1
      | c :: _ => if "-=?+".toList.contains c then instead c false 1 else bad
      | [] => bad

/-- Reads a token that is not put back. -/
def freshToken : Nat → Reader Token
  | 0 => fail "script too deep"
  | fuel + 1 => do
    skipBlanks (fuel + 1)
    match (← get).rest with
    | [] => return .fileEnd
    | '\n' :: _ =>
      drop 1
      return .newline
    | c :: cs =>
      match ← seesMark redirectionMarks with
      | some mark =>
        drop mark.length
        return .redirect (if mark.startsWith "<" then 0 else 1) mark
      | none =>
        match ← seesMark marks with
        | some mark =>
          drop mark.length
          return .mark mark
        | none =>
          match redirectionMarks.find? fun mark => mark.toList.isPrefixOf cs with
          | some mark =>
            if c.isDigit then
              drop (mark.length + 1)
              return .redirect (c.toNat - '0'.toNat) mark
            else return .word (← pieces fuel .open_)
          | none => return .word (← pieces fuel .open_)

/-- Reads a token, over line ends if `lines` says so, and as a keyword where keywords count. -/
def token : Nat → Bool → Bool → Reader Token
  | 0, _, _ => fail "script too deep"
  | fuel + 1, counts, lines => do
    let input ← get
    let t ←
      match input.pushed with
      | some t => do
        set { input with pushed := none }
        pure t
      | none => freshToken fuel
    match t, lines with
    | .newline, true =>
      awaitedTexts fuel
      token fuel counts lines
    | t, _ => return if counts then t.asKeyword else t

/-- Reads the texts that stand behind the line that has just ended. -/
def awaitedTexts : Nat → Reader Unit
  | 0 => fail "script too deep"
  | fuel + 1 => do
    let input ← get
    match input.awaited with
    | [] => pure ()
    | first :: later =>
      set { input with awaited := later }
      let start := input.line
      let cs ← awaitedLines fuel first
      let word ←
        if first.literal then pure (quotedPieces cs)
        else do
          let outer ← get
          set { outer with rest := cs, line := start, pushed := none }
          let word ← tryCatch (pieces fuel .text) fun mistake =>
            throw { mistake with line := outer.line }
          modify fun inner => { inner with rest := outer.rest, line := outer.line,
                                           pushed := none }
          pure word
      modify fun inner => { inner with texts := inner.texts ++ [(first.number, word)] }
      awaitedTexts fuel

/-- Reads lines up to an end mark. -/
def awaitedLines : Nat → Awaited → Reader (List Char)
  | 0, _ => fail "script too deep"
  | fuel + 1, awaited => do
    if (← peek).isNone then return []
    let line ← takeWhile (· != '\n')
    let ended := (← take).isSome
    let line := if awaited.tabless then line.dropWhile (· == '\t') else line
    if line = awaited.endMark then return []
    let rest ← awaitedLines fuel awaited
    return line ++ (if ended then ['\n'] else []) ++ rest

/-- Reads the target of a redirection. -/
def target : Nat → Nat → String → Reader Redirection
  | 0, _, _ => fail "script too deep"
  | fuel + 1, stream, mark => do
    match ← token fuel false false with
    | .word w =>
      if mark.startsWith "<<" then
        -- A parameter stands for its own spelling here.
        let cs := w.flatMap fun p =>
          match p with
          | .char c _ => [c]
          | .param name .none _ => '$' :: name
          | _ => []
        let isQuoted : Piece → Bool
          | .char _ quoted => quoted
          | .quotes => true
          | _ => false
        let number := (← get).count
        modify fun input => { input with
          count := number + 1
          awaited := input.awaited ++
            [{ number, endMark := cs, tabless := mark = "<<-", literal := w.any isQuoted }] }
        return .here stream number
      else return .target stream mark w
    | t => unexpected t

/-- Reads the redirections behind a compound command. -/
def redirections : Nat → Reader (List Redirection)
  | 0 => fail "script too deep"
  | fuel + 1 => do
    match ← token fuel true false with
    | .redirect stream mark =>
      let first ← target fuel stream mark
      return first :: (← redirections fuel)
    | t =>
      push t
      return []

/-- Reads the parts of a simple command, or a function. The words so far are given in reverse. -/
def simple : Nat → Nat → List (List Char × Word) → List Word → List Redirection → Reader Script
  | 0, _, _, _, _ => fail "script too deep"
  | fuel + 1, line, assignments, words, targets => do
    match ← token fuel false false with
    | .word w =>
      match if words.isEmpty then assignment? w else none with
      | some a => simple fuel line (assignments ++ [a]) words targets
      | none => simple fuel line assignments (w :: words) targets
    | .redirect stream mark =>
      let first ← target fuel stream mark
      simple fuel line assignments words (targets ++ [first])
    | .mark "(" =>
      match assignments, words, targets with
      | [], [w], [] =>
        match ← token fuel false false with
        | .mark ")" =>
          let name := (bare? w).getD []
          if isName name = false ∨ specialCommands.contains (String.ofList name) then
            fail "Bad function name"
          else
            return .function name (← command fuel (← token fuel true true))
        | t => expecting t "\")\""
      | _, _, _ =>
        push (.mark "(")
        return .simple line assignments words.reverse targets
    | t =>
      push t
      return .simple line assignments words.reverse targets

/-- Reads a command that begins with a token. -/
def command : Nat → Token → Reader Script
  | 0, _ => fail "script too deep"
  | fuel + 1, first => do
    let line := (← get).line
    let close (script : Script) (wanted : Token) : Reader Script := do
      let t ← token fuel true false
      if t.shown ≠ wanted.shown then expecting t wanted.shown
      else
        match ← redirections fuel with
        | [] => return script
        | targets => return .redirected line script targets
    let need (wanted : String) : Reader Unit := do
      let t ← token fuel true false
      if t.shown ≠ (Token.keyword wanted).shown then expecting t (Token.keyword wanted).shown
    match first with
    | .keyword "if" => close (← branch fuel) (.keyword "fi")
    | .keyword "while" | .keyword "until" =>
      let condition ← list fuel 0
      need "do"
      let body ← list fuel 0
      close (.loop (first.shown = (Token.keyword "while").shown) condition body) (.keyword "done")
    | .keyword "for" =>
      let name := match ← token fuel false false with
        | .word w => (bare? w).getD []
        | _ => []
      if isName name = false then fail "Bad for loop variable"
      let words ←
        match ← token fuel true true with
        | .keyword "in" => do
          let words ← each fuel
          match ← token fuel false false with
          | .newline => awaitedTexts fuel
          | .mark ";" => pure ()
          | t => unexpected t
          pure (some words)
        | .mark ";" => pure none
        | t => do
          push t
          pure none
      match ← token fuel true true with
      | .keyword "do" => pure ()
      | t => expecting t (Token.keyword "do").shown
      let body ← list fuel 0
      close (.each name words body) (.keyword "done")
    | .keyword "case" =>
      match ← token fuel false false with
      | .word w =>
        match ← token fuel true true with
        | .keyword "in" =>
          let cases ← cases fuel
          match ← redirections fuel with
          | [] => return .select w cases
          | targets => return .redirected line (.select w cases) targets
        | t => expecting t (Token.keyword "in").shown
      | t => expecting t "word"
    | .mark "(" => close (.subshell (← list fuel 0)) (.mark ")")
    | .keyword "\x7b" => close (← list fuel 0) (.keyword "\x7d")
    | .word _ | .redirect .. =>
      push first
      simple fuel line [] [] []
    | t => unexpected t

/-- Reads the words of a loop. -/
def each : Nat → Reader (List Word)
  | 0 => fail "script too deep"
  | fuel + 1 => do
    match ← token fuel false false with
    | .word w => return w :: (← each fuel)
    | t =>
      push t
      return []

/-- Reads the rest of a conditional, up to the word that closes it. -/
def branch : Nat → Reader Script
  | 0 => fail "script too deep"
  | fuel + 1 => do
    let condition ← list fuel 0
    match ← token fuel true false with
    | .keyword "then" => pure ()
    | t => expecting t (Token.keyword "then").shown
    let yes ← list fuel 0
    match ← token fuel true false with
    | .keyword "elif" => return .branch condition yes (← branch fuel)
    | .keyword "else" => return .branch condition yes (← list fuel 0)
    | t =>
      push t
      return .branch condition yes .nothing

/-- Reads the cases of a selection and the word that closes them. -/
def cases : Nat → Reader (List (List Word × Script))
  | 0 => fail "script too deep"
  | fuel + 1 => do
    match ← token fuel true true with
    | .keyword "esac" => return []
    | first =>
      let first ← match first with
        | .mark "(" => token fuel false false
        | t => pure t
      let words ← patterns fuel first
      match ← token fuel false false with
      | .mark ")" => pure ()
      | t => expecting t "\")\""
      let body ← list fuel 2
      match ← token fuel true true with
      | .keyword "esac" => return [(words, body)]
      | .mark ";;" => return (words, body) :: (← cases fuel)
      | t => expecting t "\";;\""

/-- Reads the patterns of a case, the first of which has been read. -/
def patterns : Nat → Token → Reader (List Word)
  | 0, _ => fail "script too deep"
  | fuel + 1, first => do
    let word := match first with
      | .word w => w
      | .keyword text => text.toList.map fun c => .char c false
      | _ => []
    match first with
    | .fileEnd => expecting first "\")\""
    | _ =>
      match ← token fuel false false with
      | .mark "|" => return word :: (← patterns fuel (← token fuel false false))
      | t =>
        push t
        return [word]

/-- Reads commands that are joined by pipes. -/
def pipeline : Nat → Token → Reader Script
  | 0, _ => fail "script too deep"
  | fuel + 1, first => do
    match first with
    | .keyword "!" => return .negation (← stages fuel (← token fuel true false))
    | t => stages fuel t

/-- Reads the stages of a pipe. -/
def stages : Nat → Token → Reader Script
  | 0, _ => fail "script too deep"
  | fuel + 1, first => do
    let stage ← command fuel first
    match ← token fuel false false with
    | .mark "|" =>
      match ← stages fuel (← token fuel true true) with
      | .pipe more => return .pipe (stage :: more)
      | last => return .pipe [stage, last]
    | t =>
      push t
      return stage

/-- Reads a chain of conditions that begins with a token. -/
def chain : Nat → Token → Reader Script
  | 0, _ => fail "script too deep"
  | fuel + 1, first => do
    chained fuel (← pipeline fuel first)

/-- Reads the rest of a chain of conditions. -/
def chained : Nat → Script → Reader Script
  | 0, _ => fail "script too deep"
  | fuel + 1, done => do
    match ← token fuel false false with
    | .mark "&&" => chained fuel (.both done (← pipeline fuel (← token fuel true true)))
    | .mark "||" => chained fuel (.either done (← pipeline fuel (← token fuel true true)))
    | t =>
      push t
      return done

/-- Reads a list of commands. A list of kind 1 is one complete command and ends with its line; a
list of kind 2 may be empty. -/
def list : Nat → Nat → Reader Script
  | 0, _ => fail "script too deep"
  | fuel + 1, kind => do
    match ← token fuel true (kind ≠ 1) with
    | .newline =>
      awaitedTexts fuel
      return .nothing
    | .fileEnd =>
      awaitedTexts fuel
      push .fileEnd
      return .nothing
    | first =>
      if kind = 2 ∧ first.endsList then
        push first
        return .nothing
      else
        let script ← chain fuel first
        let next (script : Script) : Reader Script := do
          match ← listRest fuel kind with
          | .nothing => return script
          | more => return .sequence script more
        match ← token fuel false false with
        | .mark "&" => next (.aside script)
        | .mark ";" => next script
        | .newline =>
          push .newline
          next script
        | .fileEnd =>
          awaitedTexts fuel
          push .fileEnd
          return script
        | t =>
          if kind = 1 then unexpected t
          else
            push t
            return script

/-- Reads what follows a command of a list. -/
def listRest : Nat → Nat → Reader Script
  | 0, _ => fail "script too deep"
  | fuel + 1, kind => do
    match ← token fuel true (kind ≠ 1) with
    | .newline =>
      awaitedTexts fuel
      return .nothing
    | .fileEnd =>
      awaitedTexts fuel
      push .fileEnd
      return .nothing
    | first =>
      push first
      if kind ≠ 1 ∧ first.endsList then return .nothing else list fuel kind

/-- Reads a whole text of commands. -/
def wholeText : Nat → Reader Script
  | 0 => fail "script too deep"
  | fuel + 1 => do
    match ← token fuel true true with
    | .fileEnd => return .nothing
    | first =>
      push first
      let script ← list fuel 2
      match ← token fuel true true with
      | .fileEnd => return script
      | t => unexpected t

end

namespace Input

/-- The script has been read to its end. -/
def isDone (input : Input) : Bool :=
  match input.pushed with
  | some .fileEnd => true
  | some _ => false
  | none => input.rest.isEmpty

/-- Reads one complete command. -/
def next (input : Input) : Except Mistake (Script × Input) :=
  (list (8 * input.size + 64) 1).run input

end Input

end InlineRepl.Rehearsal.Shell
