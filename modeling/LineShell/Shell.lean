import LineShell.Command
import LineShell.CommandLine
import LineShell.Redirection.Open

/-!
# The shell

A `Shell` executes one line at a time.  Executing a line has three layers.

* `runCommand` expands a well-formed line, records it, opens its targets and runs the command
  that the first willing factory makes.
* `runLine` reads a line, runs it, reports an error that nobody else could tell, keeps the
  status, and takes the history entry that the command may have queued.
* `executeLine` runs a line and then the entry it queued.  An entry queued by that second run is
  dropped, so one line runs at most two commands.

A malformed line changes nothing but the console: its status is returned and not kept.
-/

namespace LineShell

/-- A shell between two lines. -/
structure Shell where
  factories : List Factory := Factory.default
  state : State
  /-- Whether a history entry is being run again. -/
  replaying : Bool := false

namespace Shell

def dispatch (factories : List Factory) (name : Text) (arguments : List Text) (streams : Streams) :
    Action ShellError Status := fun state =>
  match Factory.firstCommand? factories state name arguments with
  | some command => command streams state
  | none => Command.notFound name streams state

/-- Records a command line in the history of the session. -/
def recordLine (text program : Text) (session : Session) : Session :=
  { session with history := (session.history.record text program).2 }

/-- Runs a command that has at least a name. -/
def runNamed (factories : List Factory) (targets : Redirection.Targets) (name : Text)
    (arguments : List Text) : Action ShellError Status := do
  let state ← get
  let streams ←
    State.onWorld id (targets.openAll state.session.environment Streams.ofConsole)
  dispatch factories name arguments streams

/-- Runs a well-formed line.  A line that expands to nothing opens nothing. -/
def runCommand (factories : List Factory) (line : CommandLine) (record : Bool) :
    Action ShellError Status := do
  let state ← get
  let expanded := line.expand state.session.scope
  match expanded.arguments with
  | [] => return 0
  | name :: arguments =>
    if record then modifySession (recordLine line.text name)
    runNamed factories expanded.targets name arguments

/-- Tells an error on the console. -/
def report (error : ShellError) (state : State) : State :=
  { state with world := state.world.tryWrite .diagnostics (ShellError.report error.message) }

/-- Closes the files that the last command opened. -/
def closeFiles (before after : State) : State :=
  { after with world := after.world.closeFrom before.world.openFiles.length }

/-- How the run of a line ended. -/
structure LineResult where
  status : Status
  state : State
  /-- The line without its comment and the blanks around it, unless it is blank. -/
  ran : List Text := []
  /-- The history entry to be run next. -/
  replay : Option Text := none
  deriving DecidableEq, Repr

def keepStatus (status : Status) (state : State) : State :=
  { state with session := { state.session with lastStatus := status } }

/-- Keeps a status and takes the queued history entry out of the session. -/
def finish (status : Status) (line : CommandLine) (state : State) : LineResult :=
  let state := keepStatus status state
  { status
    state := { state with session := { state.session with pendingReplay := none } }
    ran := [line.text]
    replay := state.session.pendingReplay }

/-- Runs one line and nothing after it. -/
def runLine (factories : List Factory) (state : State) (line : Text) (record : Bool) : LineResult :=
  match CommandLine.read line with
  | .blank => { status := state.session.lastStatus, state }
  | .malformed fault =>
    let error := ShellError.malformed fault
    { status := error.status, state := report error state, ran := [Text.significant line] }
  | .command line =>
    match runCommand factories line record state with
    | .ok status after => finish status line (closeFiles state after)
    | .error error after =>
      let after := report error (closeFiles state after)
      if error.isMalformed then { status := error.status, state := after, ran := [line.text] }
      else finish error.status line after

/-- How the execution of a line ended. -/
structure Execution where
  status : Status
  shell : Shell
  /-- The lines that were run or found malformed, in order, without comments and the blanks around
  them. -/
  ran : List Text

/-- Executes one line: runs it, and then the history entry that it queued, which is not recorded
again.  An entry that is queued while another one is being replayed is dropped, so the recursion
is one level deep. -/
def executeLine (shell : Shell) (line : Text) (record : Bool) : Execution :=
  let first := runLine shell.factories shell.state line record
  let shown : Execution :=
    { status := first.status, shell := { shell with state := first.state }, ran := first.ran }
  match first.replay with
  | none => shown
  | some entry =>
    if _h : shell.replaying = true then shown
    else
      let second :=
        executeLine { shell with state := first.state, replaying := true } entry false
      { status := second.status
        shell := { second.shell with replaying := false }
        ran := first.ran ++ second.ran }
termination_by if shell.replaying then 0 else 1
decreasing_by simp_all

end Shell

end LineShell
