import LineShell.Redirection.Parse
import LineShell.Text.Words
import LineShell.Variables.Substitution

/-!
# Command lines

A line is read without looking at any variable.  `CommandLine.read` cuts its comment and the
blanks around it; what is left is blank, malformed, or a command line of words and redirections.
Variables come in only when a command line is expanded: then each word becomes at most one
argument, and each path one path, so no value can change the structure of the line.
-/

namespace LineShell

/-- A well-formed line. -/
structure CommandLine where
  /-- The line without its comment and the blanks around it. -/
  text : Text
  words : List Text
  targets : Redirection.Targets
  deriving DecidableEq, Repr

namespace CommandLine

/-- What a line turns out to be. -/
inductive Reading where
  | blank
  | malformed (fault : LineFault)
  | command (line : CommandLine)
  deriving DecidableEq, Repr

/-- Reads the significant part of a line.  Faults of redirections come before the count of
words. -/
def parse (text : Text) : Except LineFault CommandLine := do
  let parsed ← Redirection.parse text
  let words := Text.words parsed.residual
  if maxWords < words.length then .error .tooManyWords
  .ok { text, words, targets := parsed.targets }

def read (line : Text) : Reading :=
  let text := Text.significant line
  if text.isEmpty then .blank
  else
    match parse text with
    | .error fault => .malformed fault
    | .ok line => .command line

/-- The command line with the values of variables in place. -/
structure Expanded where
  arguments : List Text
  targets : Redirection.Targets
  deriving DecidableEq, Repr

/-- Puts the values of variables in place. -/
def expand (line : CommandLine) (scope : Scope) : Expanded :=
  { arguments := scope.arguments line.words
    targets := line.targets.mapPaths scope.substitute }

end CommandLine

end LineShell
