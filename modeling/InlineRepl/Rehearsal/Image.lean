import InlineRepl.Rehearsal.Standard

/-!
# Executing files

What is carried out when a file is executed. A file whose first line begins with `#!` is carried
out by the interpreter that the line names, which may itself be such a file: the interpreter is
given the rest of the line as one argument, the path of the file, and the arguments of the file.
-/

namespace InlineRepl.Rehearsal

/-- A small program and what it is given, its own name first. -/
structure Image where
  program : String
  argv : List String
  deriving Repr, DecidableEq

namespace Image

/-- How much of a file is looked at. -/
def headLength : Nat := 256

/-- How many interpreters may follow one another. -/
def interpreterLimit : Nat := 5

/-- A blank in the first line. -/
def isBlank (b : UInt8) : Bool :=
  b == 32 || b == 9

/-- The text of bytes up to the first zero. -/
def textOf (bytes : List UInt8) : String :=
  Text.Utf8.decodeLossy (bytes.takeWhile (· != 0))

/-- Bytes without the blanks at their end. -/
def trimmed (bytes : List UInt8) : List UInt8 :=
  (bytes.reverse.dropWhile isBlank).reverse

/-- The interpreter that a line names, and its argument. -/
def named (line : List UInt8) : String × Option String :=
  let name := line.takeWhile fun b => !isBlank b && b != 0
  let rest := line.drop name.length
  (textOf name,
    if (rest.head?.map isBlank).getD false then some (textOf (rest.dropWhile isBlank)) else none)

/-- The interpreter that the head of a file names. A line that does not end within the head must at
least show where the interpreter's name ends. -/
def interpreter? (bytes : List UInt8) : Option (String × Option String) :=
  let head := bytes.take headLength
  match head ++ List.replicate (headLength - head.length) 0 with
  | 35 :: 33 :: cs =>
    if cs.contains 10 then
      match (trimmed (cs.takeWhile (· != 10))).dropWhile isBlank with
      | [] => none
      | line => some (named line)
    else
      let cs := cs.dropWhile isBlank
      if cs.any fun b => isBlank b || b == 0 then some (named (trimmed cs.dropLast)) else none
  | _ => none

/-- What is carried out when the file at a path is executed. The fuel bounds the interpreters that
may still follow. -/
def load (tree : Tree) : Nat → String → List String → Except FileFault Image
  | fuel, path, argv =>
    match tree.find ⟨path⟩ with
    | .error fault => .error fault
    | .ok (.file bytes true) =>
      match fuel with
      | 0 => .error .tooManyLinks
      | fuel + 1 =>
        match Standard.programOf? bytes with
        | some program => .ok { program, argv }
        | none =>
          match interpreter? bytes with
          | none => .error .notExecutable
          | some ("", _) => .error .permissionDenied
          | some (name, argument) =>
            load tree fuel name (name :: argument.toList ++ path :: argv.drop 1)
    | .ok _ => .error .permissionDenied

/-- The most bytes that an argument may have, the zero behind it included. -/
def argumentLimit : Nat := 131072

/-- What is carried out when the file at a path is executed with arguments, its name first. -/
def ofPath (tree : Tree) (path : String) (argv : List String) : Except FileFault Image :=
  match load tree (interpreterLimit + 1) path argv with
  | .error fault => .error fault
  | .ok image =>
    if argv.any fun text => decide (argumentLimit ≤ text.utf8ByteSize) then
      .error .argumentsTooLong
    else .ok image

/-- Tries the directories of a search path one after the other. A file that may not be executed is
passed over, and reported when no other is found; otherwise the last fault is reported. A directory
that is longer than any path is not tried; if others follow, the working directory is tried
instead. -/
def search (tree : Tree) (argv : List String) (name : String) (last : FileFault) (refused : Bool) :
    List String → Except FileFault Image
  | [] => .error (if refused then .permissionDenied else last)
  | dir :: dirs =>
    if Tree.pathLimit < dir.utf8ByteSize ∧ dirs = [] then
      .error (if refused then .permissionDenied else last)
    else
      let path :=
        if dir = "" ∨ Tree.pathLimit < dir.utf8ByteSize then name else dir ++ "/" ++ name
      match ofPath tree path argv with
      | .ok image => .ok image
      | .error .permissionDenied => search tree argv name .permissionDenied true dirs
      | .error .notFound => search tree argv name .notFound refused dirs
      | .error .notDirectory => search tree argv name .notDirectory refused dirs
      | .error fault => .error fault

/-- What is carried out when a program is started: the file at its path if it is spelled with a
slash, and otherwise the one that is found on the search path. -/
def locate (tree : Tree) (searchPath : String) (program : String) (argv : List String) :
    Except FileFault Image :=
  if program = "" then .error .notFound
  else if program.toList.contains '/' then ofPath tree program argv
  else
    search tree argv program .notFound false
      ((Text.split ':' searchPath.toList).map String.ofList)

end Image

end InlineRepl.Rehearsal
