import LineShell.LineFault
import LineShell.Path
import LineShell.Session
import LineShell.SystemError

/-!
# Errors of a command line

A `ShellError` ends the execution of one line, never that of the shell.  It has a wording and a
status.  A malformed line is set apart from the rest, because it leaves the session as it was.
-/

namespace LineShell

/-- What can end the execution of a line. -/
inductive ShellError where
  | malformed (fault : LineFault)
  /-- The file of a redirection cannot be opened. -/
  | redirection (path : Path) (cause : IoError)
  | notFound (name : Text)
  /-- A program was found and cannot be started. -/
  | notStarted (name : Text) (cause : IoError)
  | stream (cause : IoError)
  deriving DecidableEq, Repr

namespace ShellError

def message : ShellError → Text
  | malformed fault => "syntax error: ".toList ++ fault.message
  | redirection path cause => path.toText ++ ": ".toList ++ cause.message
  | notFound name => "command not found: ".toList ++ name
  | notStarted name cause => name ++ ": ".toList ++ cause.message
  | stream cause => "io error: ".toList ++ cause.message

/-- The status of a line that ended with an error. -/
def status : ShellError → Status
  | malformed _ => .malformedLine
  | redirection .. => 1
  | notFound _ => .notFound
  | notStarted .. => .notStarted
  | stream _ => 1

def isMalformed : ShellError → Bool
  | malformed _ => true
  | _ => false

/-- A diagnostic line as the shell writes it. -/
def report (message : Text) : Bytes :=
  Utf8.encode ("tinysh: ".toList ++ message ++ ['\n'])

end ShellError

end LineShell
