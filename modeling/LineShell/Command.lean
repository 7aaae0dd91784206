import LineShell.Builtin.Run
import LineShell.Program.Start

/-!
# Commands

A `Command` is ready to run: its name and arguments are fixed, and it only lacks the streams.  A
`Factory` makes a command out of a name and arguments, or declines.  A shell asks its factories
in order and takes the first command it gets.

The default factories are one for each builtin, in the order of `Builtin.all`, and then the one
for programs.
-/

namespace LineShell

/-- Something that runs on streams, with a session and its world. -/
abbrev Command := Streams → Action ShellError Status

/-- Makes a command out of a name and arguments, or declines. -/
abbrev Factory := State → (name : Text) → (arguments : List Text) → Option Command

namespace Command

def emit (sink : Sink) (data : Bytes) : Action ShellError Unit :=
  State.onWorld .stream (WorldAction.write sink data)

/-- Tells why the arguments of a builtin are refused. -/
def refusal (fault : ArgumentFault) : Command := fun streams => do
  emit streams.stderr (Builtin.outputLine (Text.trimEnd fault.message))
  return 1

def help (builtin : Builtin) : Command := fun streams => do
  emit streams.stdout (Builtin.outputLine (Text.trimEnd builtin.help))
  return 0

/-- Runs a builtin and tells its failure on the standard error of the command.  Whatever the builtin
writes is in its stream at once, so there is nothing to flush behind it. -/
def ofCall (call : Call) : Command := fun streams state =>
  match call.run (Outputs.ofStreams streams) state with
  | .ok status state => .ok status state
  | .error failure state =>
    (do
      emit streams.stderr (ShellError.report failure.message)
      return 1 : Action ShellError Status) state

/-- The command that a builtin makes of its arguments. -/
def ofBuiltin (builtin : Builtin) (arguments : List Text) : Command :=
  match builtin.read arguments with
  | .error fault => refusal fault
  | .ok none => help builtin
  | .ok (some call) => ofCall call

def ofProgram (path : Path) (name : Text) (arguments : List Text) : Command := fun streams => do
  let state ← get
  State.onWorld id (Program.start state.session.environment path name arguments streams)

end Command

namespace Factory

/-- Makes a builtin when it is called by its name. -/
def ofBuiltin (builtin : Builtin) : Factory := fun _ name arguments =>
  if name = builtin.name then some (Command.ofBuiltin builtin arguments) else none

/-- Makes a command of a program that can be found. -/
def ofPrograms : Factory := fun state name arguments =>
  (Program.findIn? state.world.store state.session.environment name).map fun path =>
    Command.ofProgram path name arguments

/-- The factories of a shell that was given no others. -/
def default : List Factory :=
  [ofBuiltin .cd, ofBuiltin .pwd, ofBuiltin .exportVariable, ofBuiltin .localVariable,
    ofBuiltin .vars, ofBuiltin .history, ofBuiltin .ls, ofBuiltin .exit, ofPrograms]

/-- No builtin is missing among the default factories. -/
theorem default_eq : default = Builtin.all.map ofBuiltin ++ [ofPrograms] := rfl

def firstCommand? (factories : List Factory) : Factory := fun state name arguments =>
  factories.findSome? fun factory => factory state name arguments

end Factory

def Command.notFound (name : Text) : Command := fun streams => do
  let error := ShellError.notFound name
  emit streams.stderr (ShellError.report error.message)
  return error.status

end LineShell
