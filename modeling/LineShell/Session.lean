import LineShell.History
import LineShell.Path
import LineShell.Status
import LineShell.Variables

/-!
# Sessions

A `Session` is everything that one shell remembers between its lines.  It never touches the
variables or the working directory of the process it runs in: programs are started with exactly
the exported variables and the directory of their session.
-/

namespace LineShell

/-- What programs inherit: the exported variables and the working directory. -/
structure Environment where
  exported : Variables := {}
  directory : Path
  deriving DecidableEq, Repr

namespace Environment

/-- The path that a text denotes for this environment. -/
def resolve (environment : Environment) (path : Text) : Path :=
  Path.join environment.directory (Path.ofText path)

def withVariable (environment : Environment) (name value : Text) : Environment :=
  { environment with exported := environment.exported.set name value }

end Environment

structure Session where
  environment : Environment
  locals : Variables := {}
  history : History := .new
  lastStatus : Status := 0
  /-- Whether a search path without any usable directory was exported. -/
  pathUnusable : Bool := false
  exitRequested : Bool := false
  /-- A history entry that is to be run after the current command. -/
  pendingReplay : Option Text := none
  deriving DecidableEq, Repr

namespace Session

/-- The variables that a line can refer to. -/
def scope (session : Session) : Scope := ⟨session.environment.exported, session.locals⟩

/-- The status of the whole session.  An unusable search path outweighs everything else. -/
def finalStatus (session : Session) : Status :=
  if session.pathUnusable then .unusablePath else session.lastStatus

end Session

end LineShell
