import LineShell.Text.Blank

/-!
# The programs of the small world

Programs are known by what they do with their arguments, environment and streams, not by their
bytes.  This module has their names; `Program/Run.lean` has their behaviour.
-/

namespace LineShell

inductive Tool where
  /-- Prints its arguments on one line. -/
  | echo
  /-- Prints each of its arguments, its own name included, in brackets. -/
  | showArguments
  | cat
  | env
  | cwd
  /-- Prints a line on each of its outputs. -/
  | both
  /-- Ends with a given exit code. -/
  | status
  /-- Ends itself by a signal. -/
  | kill
  | succeed
  | fail
  deriving DecidableEq, Repr

namespace Tool

def fileName : Tool → Text
  | echo => "echo".toList
  | showArguments => "show".toList
  | cat => "cat".toList
  | env => "env".toList
  | cwd => "cwd".toList
  | both => "both".toList
  | status => "status".toList
  | kill => "kill".toList
  | succeed => "true".toList
  | fail => "false".toList

def all : List Tool :=
  [echo, showArguments, cat, env, cwd, both, status, kill, succeed, fail]

end Tool

end LineShell
