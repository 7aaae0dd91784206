import LineShell.Program.Launch
import LineShell.Status
import LineShell.Text.Numeral
import LineShell.Text.Order
import LineShell.Variables
import LineShell.World

/-!
# What programs do

A running program has its arguments, its environment, its working directory and its streams, and
nothing else of the shell.  It ends with an exit code or by a signal.  Writes that fail are
ignored by all programs, so the only thing that can go wrong in one is reading.
-/

namespace LineShell.Program

structure Process where
  tool : Tool
  /-- The arguments, the program's own name first. -/
  arguments : List Bytes
  environment : List (Text × Text)
  directory : Location
  streams : Streams
  deriving DecidableEq, Repr

inductive Ending where
  | exited (code : Int)
  | killed (signal : Nat)
  deriving DecidableEq, Repr

/-- The status that the shell sees.  Of an exit code only the low eight bits arrive. -/
def Ending.status : Ending → Status
  | exited code => (code % 256 : Int)
  | killed signal => Status.ofSignal signal

def line (content : Bytes) : Bytes := content ++ [10]

/-- Arguments separated by single spaces. -/
def spaced (arguments : List Bytes) : Bytes := [32].intercalate arguments

/-- The lines of an environment.  There is one for each inherited string that stands for a variable.
They are sorted with their line feeds, so a tab goes before the end of a line. -/
def environmentLines (environment : List (Text × Text)) : List Text :=
  let strings := environment.map fun (name, value) => Variables.definition name value
  let lines := (strings.filter fun string => (Variables.ofDefinition? string).isSome).map
    (· ++ ['\n'])
  lines.mergeSort (inOrder Char.toNat)

/-- The exit code that is used when the argument for it is missing or no number. -/
def fallbackCode : Int := 99

/-- The number that an argument denotes. -/
def codeOf (argument : Option Bytes) : Option Int :=
  argument.bind Utf8.decode? |>.bind fun text => (Numeral.readCode text).toOption

/-- Signals that do not end a program: the empty one, those that are ignored unless asked for, and
the broken pipe, which these programs ignore because they ignore every write that fails. -/
def harmlessSignals : List Nat := [0, 13, 17, 18, 23, 28]

/-- How a program ends that sends a signal to itself. -/
def endingBySignal (argument : Option Bytes) : Ending :=
  match codeOf argument with
  | some (.ofNat signal) =>
    if harmlessSignals.contains signal || 64 < signal then .exited 0 else .killed signal
  | _ => .exited 0

def run (process : Process) (world : World) : Ending × World :=
  let streams := process.streams
  let operands := process.arguments.drop 1
  let toOutput (data : Bytes) : World := world.tryWrite streams.stdout data
  match process.tool with
  | .echo => (.exited 0, toOutput (line (spaced operands)))
  | .showArguments =>
    (.exited 0, toOutput (process.arguments.flatMap fun a => line (91 :: a ++ [93])))
  | .cat =>
    match world.read streams.stdin none with
    | .ok (data, world) => (.exited 0, world.tryWrite streams.stdout data)
    | .error cause =>
      (.exited 1, world.tryWrite streams.stderr
        (line (Utf8.encode ("cat: ".toList ++ cause.message))))
  | .env =>
    (.exited 0, toOutput ((environmentLines process.environment).flatMap Utf8.encode))
  | .cwd => (.exited 0, toOutput (line (FileStore.pathOf process.directory)))
  | .both =>
    let named (label : String) : Bytes := line (Utf8.encode label.toList ++ spaced operands)
    (.exited 0, (toOutput (named "out:")).tryWrite streams.stderr (named "err:"))
  | .status => (.exited ((codeOf operands.head?).getD fallbackCode), world)
  | .kill => (endingBySignal operands.head?, world)
  | .succeed => (.exited 0, world)
  | .fail => (.exited 1, world)

end LineShell.Program
