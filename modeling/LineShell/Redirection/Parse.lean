import LineShell.LineFault
import LineShell.Redirection.Scan
import LineShell.Redirection.Targets

/-!
# Parsing redirections

`parse` separates the redirections of a line from the rest of it.  It is `scan` with its result
read off: the first redirection without a path is a fault, the residual is the plain text, and
the targets are the redirections applied in order.
-/

namespace LineShell.Redirection

/-- A line with its redirections taken out. -/
structure Parsed where
  /-- The line without operators and paths, otherwise unchanged. -/
  residual : Text
  targets : Targets
  deriving DecidableEq, Repr

variable {α : Type}

/-- The first redirection that lacks its path. -/
def Scan.incomplete? (s : Scan α) : Option (Occurrence α) :=
  s.occurrences.find? (·.path.isEmpty)

def Scan.targets (s : Scan Char) : Targets :=
  s.occurrences.foldl (fun targets o => targets.set o.operator o.path) Targets.empty

def parse (line : Text) : Except LineFault Parsed :=
  let cut := scan id true line
  match cut.incomplete? with
  | some o => .error (.missingPath o.operator)
  | none => .ok { residual := cut.residual, targets := cut.targets }

end LineShell.Redirection
