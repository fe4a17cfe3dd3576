import InlineRepl.Path
import InlineRepl.Wire.Position

/-!
# Launching an interpreter

What is run for a session: the interpreter executes the bridge script, which is told the control
port, its session and the interpreter's path. Arguments are texts. A path that becomes one is given
as its bytes, because not every path of the system is a text.
-/

namespace InlineRepl

/-- A path as an argument: in quotes where backslashes separate paths, untouched elsewhere. -/
def escapePath (path : String) (separator : Char) : String :=
  if separator = '\\' then "\"" ++ path ++ "\"" else path

/-- The character that separates the components of a path. -/
def pathSeparator : Char := '/'

/-- A path as an argument on this platform. Bytes that are not UTF-8 are replaced. -/
def escapeForPlatform (path : List UInt8) : String :=
  escapePath (Text.Utf8.decodeLossy path) pathSeparator

/-- A process to be started. -/
structure LaunchSpec where
  program : String
  args : List String
  cwd : Path
  deriving Repr, DecidableEq

/-- The process that runs the bridge script in a project. -/
def LaunchSpec.bridge (command : String) (script : List UInt8) (port : UInt16)
    (session : SessionId) (interpreter : List UInt8) (root : Path) : LaunchSpec :=
  { program := command
    args :=
      ["--exec", escapeForPlatform script, toString port.toNat, session.display,
        escapeForPlatform interpreter]
    cwd := root }

end InlineRepl
