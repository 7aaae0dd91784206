import LineShell.Command

/-!
# Commands described by data

A shell can be given commands of its own instead of the default ones.  A `Description` is such a
command as plain data: what it is called by, and what it does, always in the same order.  It
writes its arguments, fixed texts and its input, sets variables, and ends with an error or a
status.  A stream that fails ends it at once.
-/

namespace LineShell.Command

/-- A command as data. -/
structure Description where
  name : Text
  /-- The number of arguments it is called with, if that matters. -/
  arity : Option Nat := none
  /-- Whether it writes each of its arguments in brackets. -/
  showsArguments : Bool := false
  output : Option Text := none
  diagnostics : Option Text := none
  copiesInput : Bool := false
  setsLocal : Option (Text × Text) := none
  setsExported : Option (Text × Text) := none
  failure : Option ShellError := none
  /-- The status that it ends with otherwise. -/
  status : Status := 0

namespace Description

/-- Whether a call is one of this command. -/
def isCalledBy (description : Description) (name : Text) (arguments : List Text) : Bool :=
  name == description.name && description.arity.all (· == arguments.length)

def assign (description : Description) (session : Session) : Session :=
  let locals := match description.setsLocal with
    | none => session.locals
    | some (name, value) => session.locals.set name value
  let environment := match description.setsExported with
    | none => session.environment
    | some (name, value) => session.environment.withVariable name value
  { session with locals, environment }

def command (description : Description) (arguments : List Text) : Command := fun streams => do
  if description.showsArguments then
    arguments.forM fun argument =>
      emit streams.stdout (Builtin.outputLine ('[' :: argument ++ [']']))
  description.output.forM fun text => emit streams.stdout (Utf8.encode text)
  description.diagnostics.forM fun text => emit streams.stderr (Utf8.encode text)
  if description.copiesInput then
    let input ← State.onWorld .stream (WorldAction.readAll streams.stdin)
    emit streams.stdout input
  modifySession description.assign
  match description.failure with
  | some error => throw error
  | none => return description.status

def factory (description : Description) : Factory := fun _ name arguments =>
  if description.isCalledBy name arguments then some (description.command arguments) else none

end Description

end LineShell.Command
