import LineShell.Redirection.Targets
import LineShell.State

/-!
# Opening redirection targets

The targets of a command are opened in a fixed order: standard input, standard output, standard
error, and a combined target last.  The first one that cannot be opened ends this; what was
created or emptied before stays so.  A combined target is opened once, and both outputs share
its file.
-/

namespace LineShell.Redirection

/-- Runs a step that opens a path; its failure names the path. -/
def opening {α : Type} (path : Path) (step : World → Except IoError (α × World)) :
    WorldAction ShellError α :=
  WorldAction.ofStep fun world => (step world).mapError (.redirection path)

/-- Opens the target of standard input, if there is one. -/
def openInput (environment : Environment) (path : Option Text) (source : Source) :
    WorldAction ShellError Source :=
  match path with
  | none => pure source
  | some path =>
    let path := environment.resolve path
    opening path (·.openInput path)

/-- Opens the target of an output, if there is one. -/
def openOutput (environment : Environment) (target : Option Target) (sink : Sink) :
    WorldAction ShellError Sink :=
  match target with
  | none => pure sink
  | some target =>
    let path := environment.resolve target.path
    opening path (·.openOutput path target.mode)

/-- Opens every target and puts it in place of the stream that it redirects. -/
def Targets.openAll (targets : Targets) (environment : Environment) (streams : Streams) :
    WorldAction ShellError Streams := do
  let stdin ← openInput environment targets.stdin streams.stdin
  let stdout ← openOutput environment targets.stdout streams.stdout
  let stderr ← openOutput environment targets.stderr streams.stderr
  match targets.combined with
  | none => pure { stdin, stdout, stderr }
  | some target =>
    let sink ← openOutput environment (some target) stdout
    pure { stdin, stdout := sink, stderr := sink }

end LineShell.Redirection
