import LineShell.ShellError
import LineShell.World

/-!
# Actions on a session and its world

A command acts on a `State`.  An action may fail and still have changed the state before that:
the state at the point of failure is kept, as what has been written stays written.  Actions on
the world alone are lifted with `State.onWorld`; by their type they leave the session as it is.
-/

namespace LineShell

/-- A session and the world that it acts on. -/
structure State where
  session : Session
  world : World
  deriving DecidableEq, Repr

/-- An action on the world, with its causes of failure. -/
abbrev WorldAction (ε : Type) := EStateM ε World

/-- An action on a session and its world, with its causes of failure. -/
abbrev Action (ε : Type) := EStateM ε State

namespace WorldAction

/-- A step of the world that may be refused, in which case nothing changes. -/
def ofStep {ε α : Type} (step : World → Except ε (α × World)) : WorldAction ε α := fun world =>
  match step world with
  | .ok (a, world) => .ok a world
  | .error e => .error e world

def write (sink : Sink) (data : Bytes) : WorldAction IoError Unit :=
  ofStep fun world => (world.write sink data).map ((), ·)

/-- Reads a source to its end. -/
def readAll (source : Source) : WorldAction IoError Bytes :=
  ofStep fun world => world.read source none

end WorldAction

/-- Lifts an action on the world and gives its failures a place among those of the command. -/
def State.onWorld {ε δ α : Type} (failure : ε → δ) (action : WorldAction ε α) : Action δ α :=
  fun state =>
    match action state.world with
    | .ok a world => .ok a { state with world }
    | .error e world => .error (failure e) { state with world }

theorem State.session_of_onWorld_ok {ε δ α : Type} {failure : ε → δ} {action : WorldAction ε α}
    {state state' : State} {a : α} (h : State.onWorld failure action state = .ok a state') :
    state'.session = state.session := by
  unfold State.onWorld at h
  cases hrun : action state.world with
  | ok b world =>
    rw [hrun] at h
    cases h
    rfl
  | error e world =>
    rw [hrun] at h
    cases h

theorem State.session_of_onWorld_error {ε δ α : Type} {failure : ε → δ} {action : WorldAction ε α}
    {state state' : State} {e : δ} (h : State.onWorld failure action state = .error e state') :
    state'.session = state.session := by
  unfold State.onWorld at h
  cases hrun : action state.world with
  | ok b world =>
    rw [hrun] at h
    cases h
  | error e world =>
    rw [hrun] at h
    cases h
    rfl

def modifySession {ε : Type} (f : Session → Session) : Action ε Unit :=
  modify fun state => { state with session := f state.session }

end LineShell
