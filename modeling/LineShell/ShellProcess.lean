import LineShell.Batch
import LineShell.LineSource
import LineShell.Text.Backspace

/-!
# The shell as a program

A shell process reads its arguments, sets up a session, and executes the lines of a script or of
its standard input until they end or the exit is requested.  What it cannot do at all it says in
one line on standard error, and then its exit code is 1; otherwise the exit code is the final
status of the session, cut down to eight bits.

Lines of standard input are taken as typed: backspaces in them take effect, and some terminals
get a prompt before each line.  Backspaces that cut a character in two leave no line at all, and
the process breaks down.  The lines of a script are taken as they are.

The lines of a script can grow while it runs, so nothing bounds the number of lines from the
start.  `ShellProcess.step` executes one line; `Progress.run` repeats it up to a given number of times.
-/

namespace LineShell

namespace Options

/-- The option that sets the capacity of the history. -/
def historySize : Text := "--history-size".toList

def help : Text := Builtin.helpLines
  ["Usage: tinysh [-v] [--history-size <history-size>] [--] [<script>]", "",
    "A small line-oriented shell. Reads commands from SCRIPT when given, otherwise from the terminal.",
    "", "Positional Arguments:", "  script            file with one command per line.", "",
    "Options:", "  -v, --verbose     log every resolved command to stderr.",
    "  --history-size    number of history entries to keep (at most 100).",
    "  --help, help      display usage information"]

/-- Why a history size is refused while the arguments are read. -/
def sizeFault? (value : Text) : Option Text :=
  match Numeral.readSize value with
  | .ok _ => none
  | .error fault => some fault.message

/-- What a shell process can be asked for.  The switch for a more talkative log is read and has no
effect, as the log is no part of what a process does. -/
def grammar : Grammar :=
  { help
    flags := ["-v".toList, "--verbose".toList]
    options := [{ name := historySize, fault? := sizeFault? }]
    operands := .optional }

/-- The history size that was asked for. -/
def sizeOf? (given : Given) : Option Nat :=
  (given.options.find? (·.1 == historySize)).bind fun (_, value) =>
    (Numeral.readSize value).toOption

/-- The line that follows every refusal of arguments. -/
def hint : Text := "\nRun tinysh --help for more information.\n".toList

end Options

/-- Why a shell process ends before its session does. -/
inductive StartupError where
  | historySize (fault : History.ResizeFault)
  | script (path : Text) (cause : IoError)
  | scriptLine (cause : IoError)
  | inputLine (cause : IoError)
  deriving DecidableEq, Repr

/-- The wording of an error.  A failure of standard input is told with its cause. -/
def StartupError.message : StartupError → Text
  | historySize fault => Options.historySize ++ ": ".toList ++ fault.message
  | script path cause => "cannot open ".toList ++ path ++ ": ".toList ++ cause.message
  | scriptLine cause => cause.message
  | inputLine cause => cause.message ++ ": ".toList ++ cause.message

/-- How a shell process ended. -/
structure Exit where
  code : Nat
  world : World

namespace Exit

/-- The end of a process with an error. -/
def ofError (error : StartupError) (world : World) : Exit :=
  { code := 1, world := world.tryWrite .diagnostics (ShellError.report error.message) }

/-- The end of a process whose arguments were refused. -/
def ofFault (fault : ArgumentFault) (world : World) : Exit :=
  { code := 1
    world := world.tryWrite .diagnostics (Utf8.encode (fault.message ++ Options.hint)) }

/-- The end of a process that was asked for help. -/
def ofHelp (world : World) : Exit :=
  { code := 0, world := world.tryWrite .output (Builtin.outputLine Options.help) }

/-- The end of a process that breaks down over a line whose backspaces cut a character in two. -/
def ofCutCharacter (world : World) : Exit := { code := 101, world }

/-- The end of a process with its session. -/
def ofShell (shell : Shell) : Exit :=
  { code := shell.state.session.finalStatus.exitCode, world := shell.state.world }

end Exit

/-- Who wrote the lines of a process. -/
inductive Feed where
  /-- They stand in a script. -/
  | script
  /-- They are typed, perhaps on a terminal that wants a prompt. -/
  | typed (prompting : Bool)
  deriving DecidableEq, Repr

namespace Feed

/-- The variable that names the terminal. -/
def terminalVariable : Text := ['T', 'E', 'R', 'M']

/-- Terminals without a cursor to move, in small letters.  A line on them cannot be edited in
place, and they get the prompt wherever the lines come from. -/
def plainTerminals : List Text := ["dumb".toList, "cons25".toList, "emacs".toList]

def prompt : Text := "tinysh> ".toList

/-- The lines of standard input, typed on the terminal that the inherited variables name.  Where
several name one, the first counts. -/
def ofInput (inherited : List (Text × Text)) : Feed :=
  .typed ((OrderedMap.lookup terminalVariable inherited).any fun name =>
    plainTerminals.contains (name.map Char.toLower))

/-- What is written before a line is read. -/
def invitation : Feed → Text
  | typed true => prompt
  | _ => []

/-- The line that is meant by a line as it was read, if its backspaces leave one. -/
def meant : Feed → Text → Option Text
  | script, line => some line
  | typed _, line => line.edited?

/-- The error that a line which cannot be read becomes. -/
def failure : Feed → IoError → StartupError
  | script => .scriptLine
  | typed _ => .inputLine

end Feed

/-- A shell process between two lines. -/
structure ShellProcess where
  shell : Shell
  lines : LineSource
  feed : Feed

/-- What becomes of a process. -/
inductive Progress where
  | running (process : ShellProcess)
  | ended (result : Exit)

namespace ShellProcess

/-- Opens the lines of a script, whose path is taken from a directory, or those of standard input,
which are typed in the way that `typed` says. -/
def openLines (script : Option Text) (typed : Feed) (directory : Location) (shell : Shell) :
    Except StartupError ShellProcess :=
  match script with
  | none => .ok { shell, lines := { source := .console }, feed := typed }
  | some path => do
    let world := shell.state.world
    let location ← (world.store.openForReadingFrom directory (Path.ofText path)).mapError
      (.script path)
    let (number, world) := world.addOpenFile { location }
    .ok
      { shell := { shell with state := { shell.state with world } }
        lines := { source := .file number }
        feed := .script }

/-- Sets up the session of a process in its working directory. -/
def setUp (given : Given) (strings : List Text) (directory : Location) (world : World) :
    Except StartupError ShellProcess := do
  let history ←
    match Options.sizeOf? given with
    | none => pure History.new
    | some size => (History.new.resize size).mapError .historySize
  let environment : Environment :=
    { exported := Variables.ofStrings strings, directory := FileStore.pathOf directory }
  openLines given.operands.head? (.ofInput (Variables.inherited strings)) directory
    { state := { session := { environment, history }, world } }

/-- Starts a process with its arguments, the strings by which it inherits its variables, and its
working directory. -/
def start (arguments strings : List Text) (directory : Location) (world : World) : Progress :=
  match Options.grammar.read arguments with
  | .error fault => .ended (Exit.ofFault fault world)
  | .ok none => .ended (Exit.ofHelp world)
  | .ok (some given) =>
    match setUp given strings directory world with
    | .error error => .ended (Exit.ofError error world)
    | .ok process => .running process

def step (process : ShellProcess) : Progress :=
  let state := process.shell.state
  let failed (cause : IoError) (world : World) : Progress :=
    .ended (Exit.ofError (process.feed.failure cause) world)
  let world := state.world.tryWrite .output (Utf8.encode process.feed.invitation)
  match process.lines.next world with
  | .error cause => failed cause world
  | .ok (none, _, world) =>
    .ended (Exit.ofShell { process.shell with state := { state with world } })
  | .ok (some line, lines, world) =>
    match Utf8.decode? line with
    | none => failed .notUtf8 world
    | some text =>
      match process.feed.meant text with
      | none => .ended (Exit.ofCutCharacter world)
      | some text =>
        let shell := { process.shell with state := { state with world } }
        let shell := (shell.executeLine text true).shell
        if shell.state.session.exitRequested then .ended (Exit.ofShell shell)
        else .running { process with shell, lines }

end ShellProcess

/-- Goes on for at most `steps` lines. -/
def Progress.run : (steps : Nat) → Progress → Progress
  | 0, progress => progress
  | _, .ended result => .ended result
  | steps + 1, .running process => process.step.run steps

end LineShell
