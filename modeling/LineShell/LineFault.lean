import LineShell.Redirection.Operator

/-!
# Malformed lines

A line is malformed if a redirection lacks its path or if it has too many words.  A command that
is built from outside the library may report a malformed line in words of its own.
-/

namespace LineShell

/-- The greatest number of words of a line, the command name included. -/
def maxWords : Nat := 64

/-- Why a line is malformed. -/
inductive LineFault where
  | missingPath (operator : Redirection.Operator)
  | tooManyWords
  /-- A reason given by a command. -/
  | reported (reason : Text)
  deriving DecidableEq, Repr

def LineFault.message : LineFault → Text
  | .missingPath operator => "missing filename after `".toList ++ operator.symbol ++ "`".toList
  | .tooManyWords =>
    "too many arguments (at most ".toList ++ Text.ofNat maxWords ++ ")".toList
  | .reported reason => reason

end LineShell
