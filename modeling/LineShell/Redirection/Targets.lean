import LineShell.Redirection.Operator

/-!
# Redirection targets

`Targets` says for each stream which file takes its place.  A combined target stands for both
outputs and is one open file; it is never present together with a target of its own for
standard output or standard error, because `set` moves it into the slot that stays behind when
one of the two outputs is redirected again.
-/

namespace LineShell.Redirection

structure Target where
  path : Text
  mode : Mode
  deriving DecidableEq, Repr

/-- The redirections of one command, at most one target for each stream. -/
structure Targets where
  stdin : Option Text := none
  stdout : Option Target := none
  stderr : Option Target := none
  combined : Option Target := none
  deriving DecidableEq, Repr

namespace Targets

def empty : Targets := {}

/-- Adds a redirection to the ones before it.  The last one of each stream wins: a combined
target gives way on the redirected stream and stays on the other one. -/
def set (targets : Targets) (operator : Operator) (path : Text) : Targets :=
  match operator with
  | .input => { targets with stdin := some path }
  | .output mode =>
    { targets with
      stdout := some ⟨path, mode⟩
      stderr := targets.combined.or targets.stderr
      combined := none }
  | .error =>
    { targets with
      stdout := targets.combined.or targets.stdout
      stderr := some ⟨path, .truncate⟩
      combined := none }
  | .combined mode =>
    { targets with stdout := none, stderr := none, combined := some ⟨path, mode⟩ }

def mapPaths (targets : Targets) (f : Text → Text) : Targets :=
  let onTarget (target : Target) : Target := { target with path := f target.path }
  { stdin := targets.stdin.map f
    stdout := targets.stdout.map onTarget
    stderr := targets.stderr.map onTarget
    combined := targets.combined.map onTarget }

/-- Adding a redirection and mapping the paths can be done in either order. -/
theorem mapPaths_set (targets : Targets) (operator : Operator) (path : Text) (f : Text → Text) :
    (targets.set operator path).mapPaths f = (targets.mapPaths f).set operator (f path) := by
  rcases operator with _ | mode | _ | mode <;>
    simp only [set, mapPaths, Option.map_some, Option.map_none] <;>
    cases targets.combined <;> rfl

end Targets

end LineShell.Redirection
