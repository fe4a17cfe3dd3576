import InlineRepl.Tree.Change

/-!
# The usual system

The directories, devices and small programs that every directory tree is found with. A program is a
file that begins with `Standard.programMark`, followed by its name.
-/

namespace InlineRepl.Rehearsal.Standard

/-- The shells. -/
def shells : List String :=
  ["sh", "dash", "bash"]

/-- The small programs. -/
def programs : List String :=
  shells ++
    ["[", "cat", "echo", "env", "false", "grep", "head", "kill", "ls", "mkdir", "printf", "pwd",
      "rm", "sed", "sleep", "tail", "test", "touch", "tr", "true", "wc"]

/-- What a program's file begins with. -/
def programMark : List UInt8 :=
  [0x7F, 0x45, 0x4C, 0x46]

/-- The file of a program. -/
def programFile (name : String) : Entry :=
  .file (programMark ++ Text.bytesOf name) true

/-- The program that a file holds. -/
def programOf? (bytes : List UInt8) : Option String :=
  programs.find? fun name => programMark ++ Text.bytesOf name == bytes

/-- The directories that are always there, those above others first. -/
def directories : List Place :=
  [["usr"], ["usr", "bin"], ["usr", "sbin"], ["usr", "lib"], ["usr", "share"], ["usr", "local"],
    ["usr", "local", "bin"], ["usr", "local", "sbin"], ["tmp"], ["etc"], ["dev"], ["opt"], ["home"],
    ["root"], ["var"], ["mnt"], ["srv"], ["run"], ["proc"], ["sys"]]

/-- The links that are always there. -/
def links : List (Place × Path) :=
  [(["bin"], ⟨"usr/bin"⟩), (["sbin"], ⟨"usr/sbin"⟩), (["lib"], ⟨"usr/lib"⟩)]

/-- The devices. -/
def devices : List Place :=
  [["dev", "full"], ["dev", "null"], ["dev", "stderr"], ["dev", "stdin"], ["dev", "stdout"],
    ["dev", "tty"], ["dev", "urandom"], ["dev", "zero"]]

/-- Everything that is always there. -/
def everything : List (Place × Entry) :=
  (directories.map fun place => (place, .directory)) ++
    (links.map fun (place, target) => (place, .link target)) ++
    (devices.map fun place => (place, .device)) ++
    (programs.map fun name => (["usr", "bin", name], programFile name)) ++
    [(["etc", "group"], .file [] false), (["etc", "hosts"], .file [] false),
      (["etc", "hostname"], .file (Text.bytesOf "localhost\n") false),
      (["etc", "passwd"], .file [] false)]

/-- A directory tree with nothing in it but what is always there. -/
def tree : Tree :=
  { entries := everything }

/-- Where programs are looked up when nothing else is said. -/
def searchPath : String :=
  "/usr/local/sbin:/usr/local/bin:/usr/sbin:/usr/bin:/sbin:/bin"

/-- Where programs are looked up when there is no search path at all. -/
def barePath : String :=
  "/bin:/usr/bin"

end InlineRepl.Rehearsal.Standard
