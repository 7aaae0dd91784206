import LineShell.Program.Run
import LineShell.Program.Search
import LineShell.State

/-!
# Starting programs

`start` hands a found program its arguments, the exported variables, the working directory and
the streams of the command, and waits for its end.  What cannot be started is told on the
command's own standard error and gives the status `Status.notStarted`; the session does not
change either way.
-/

namespace LineShell.Program

/-- Whether a text can be handed to a program: the system marks its end by a NUL. -/
def isPassable (text : Text) : Bool := !text.contains '\x00'

/-- Whether an environment can be handed to a program. -/
def isPassableEnvironment (environment : Environment) : Bool :=
  !environment.directory.hasNul &&
    environment.exported.toList.all fun (name, value) => isPassable name && isPassable value

/-- Prepares a program.  The working directory comes first: if it is gone, the program file is not
looked at. -/
def prepare (world : World) (environment : Environment) (path : Path) (arguments : List Text)
    (streams : Streams) : Except IoError Process := do
  if !(arguments.all isPassable && isPassableEnvironment environment) then .error .nulInArgument
  let store := world.store
  let directory ← store.lookUp environment.directory
  if store.isDirectory directory = false then .error (.system .notDirectory)
  let launch ← (launch store world.beingWritten directory maxNesting path
    (arguments.map Utf8.encode)).mapError .system
  .ok
    { tool := launch.tool
      arguments := launch.arguments
      environment := environment.exported.toList
      directory
      streams }

/-- Runs the program at a path; `name` is what the user called it and becomes its own name. -/
def start (environment : Environment) (path : Path) (name : Text) (arguments : List Text)
    (streams : Streams) : WorldAction ShellError Status := fun world =>
  match prepare world environment path (name :: arguments)
      (streams.forProgram world.console.kind) with
  | .ok process =>
    let (ending, world) := run process world
    .ok ending.status world
  | .error cause =>
    let error := ShellError.notStarted name cause
    match world.write streams.stderr (ShellError.report error.message) with
    | .ok world => .ok error.status world
    | .error cause => .error (.stream cause) world

end LineShell.Program
