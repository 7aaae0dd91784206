import LineShell.Arguments
import LineShell.Builtin.Name

/-!
# Arguments of the builtins

Each builtin has a grammar for its arguments and a help text.  `Call` is a builtin together with
what it was called with; `Call.read` is how a list of arguments becomes one.
-/

namespace LineShell

inductive Call where
  | cd (target : Text)
  | pwd
  | exportVariable (assignment : Text)
  | localVariable (assignment : Text)
  | vars
  | history (operands : List Text)
  | ls
  | exit (code : Option Text)
  deriving DecidableEq, Repr

namespace Builtin

def helpLines (lines : List String) : Text := lines.flatMap fun line => line.toList ++ ['\n']

/-- The part of every help text that tells how to ask for it. -/
def helpOption : List String := ["Options:", "  --help, help      display usage information"]

def help : Builtin → Text
  | cd => helpLines <|
    ["Usage: cd [--] <target>", "", "Change the current working directory.", "",
      "Positional Arguments:",
      "  target            directory to switch to; absolute or relative to the current",
      "                    directory.", ""] ++ helpOption
  | pwd => helpLines <|
    ["Usage: pwd", "", "Print the current working directory to standard output.", ""] ++ helpOption
  | exportVariable => helpLines <|
    ["Usage: export [--] <assignment>", "",
      "Set an environment variable inherited by every command started afterwards.", "",
      "Positional Arguments:", "  assignment        assignment in the form NAME=VALUE.", ""] ++
      helpOption
  | localVariable => helpLines <|
    ["Usage: local [--] <assignment>", "",
      "Set a shell-local variable, visible to substitution but not to child processes.", "",
      "Positional Arguments:",
      "  assignment        assignment in the form NAME=VALUE; VALUE may be empty.", ""] ++ helpOption
  | vars => helpLines <|
    ["Usage: vars", "", "Print every local variable as NAME=VALUE, in the order they were defined.",
      ""] ++ helpOption
  | history => helpLines <|
    ["Usage: history [args...]", "",
      "Show the command history, run entry N again, or change its size with `set N`.", ""] ++
      helpOption
  | ls => helpLines <|
    ["Usage: ls", "",
      "List the entries of the current directory, hidden ones excluded, sorted by name.", ""] ++
      helpOption
  | exit => helpLines <|
    ["Usage: exit [--] [<code>]", "", "Exit shell process", "", "Positional Arguments:",
      "  code              exit status; defaults to the status of the last command.", ""] ++
      helpOption

def operands : Builtin → Operands
  | cd => .required "target".toList
  | exportVariable | localVariable => .required "assignment".toList
  | exit => .optional
  | history => .many
  | pwd | vars | ls => .none

def grammar (builtin : Builtin) : Grammar :=
  { help := builtin.help, operands := builtin.operands }

/-- The call that a builtin makes of its operands. -/
def call (builtin : Builtin) (operands : List Text) : Call :=
  match builtin with
  | cd => .cd (operands.headD [])
  | pwd => .pwd
  | exportVariable => .exportVariable (operands.headD [])
  | localVariable => .localVariable (operands.headD [])
  | vars => .vars
  | history => .history operands
  | ls => .ls
  | exit => .exit operands.head?

/-- Reads the arguments of a builtin.  The answer is `none` if help was asked for. -/
def read (builtin : Builtin) (arguments : List Text) : Except ArgumentFault (Option Call) :=
  (builtin.grammar.read arguments).map fun given =>
    given.map fun given => builtin.call given.operands

end Builtin

end LineShell
