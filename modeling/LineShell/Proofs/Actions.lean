import LineShell.Builtin.Run

/-!
# How actions end

An action on a session and its world succeeds or fails, and keeps its state in both cases.  The
rules of this module take a sequence of actions apart: `bind_eq_ok` and `bind_eq_error` say which
steps of it have run, and one rule for each basic action says what that step has done.

Most of what a command does is output, and output is an action on the world.  `KeepsSession`
carries the one fact about it that the rest of the theory needs: whatever the outputs are, and
whether they take the bytes or not, the session stays as it was.
-/

namespace LineShell

namespace Action

variable {ε α β : Type}

/-- What actions end with can be compared. -/
instance decidableEqResult {σ : Type} [DecidableEq ε] [DecidableEq σ] [DecidableEq α] :
    DecidableEq (EStateM.Result ε σ α)
  | .ok a state, .ok b last => decidable_of_iff (a = b ∧ state = last) (by simp)
  | .error e state, .error d last => decidable_of_iff (e = d ∧ state = last) (by simp)
  | .ok .., .error .. => .isFalse nofun
  | .error .., .ok .. => .isFalse nofun

/-! ## Sequences -/

section Sequences

variable {σ : Type} {state last : σ}

/-- A sequence goes on from where its first step has ended. -/
theorem bind_of_eq_ok {x : EStateM ε σ α} {f : α → EStateM ε σ β} {a : α} {middle : σ}
    (h : x state = .ok a middle) : (x >>= f) state = f a middle := by
  change EStateM.bind x f state = _
  unfold EStateM.bind
  rw [h]

theorem bind_eq_ok {x : EStateM ε σ α} {f : α → EStateM ε σ β} {b : β} :
    (x >>= f) state = .ok b last ↔
      ∃ a middle, x state = .ok a middle ∧ f a middle = .ok b last := by
  change EStateM.bind x f state = .ok b last ↔ _
  unfold EStateM.bind
  cases x state with
  | ok a middle => exact ⟨fun h => ⟨a, middle, rfl, h⟩, by rintro ⟨_, _, ⟨rfl, rfl⟩, h⟩; exact h⟩
  | error e middle => simp

theorem bind_eq_error {x : EStateM ε σ α} {f : α → EStateM ε σ β} {e : ε} :
    (x >>= f) state = .error e last ↔
      x state = .error e last ∨ ∃ a middle, x state = .ok a middle ∧ f a middle = .error e last := by
  change EStateM.bind x f state = .error e last ↔ _
  unfold EStateM.bind
  cases x state with
  | ok a middle =>
    constructor
    · intro h
      exact .inr ⟨a, middle, rfl, h⟩
    · rintro (h | ⟨_, _, ⟨rfl, rfl⟩, h⟩)
      · cases h
      · exact h
  | error e' middle => simp

theorem pure_eq_ok {a b : α} : (pure a : EStateM ε σ α) state = .ok b last ↔ a = b ∧ state = last := by
  change EStateM.Result.ok a state = .ok b last ↔ _
  simp

theorem pure_ne_error {a : α} {e : ε} : (pure a : EStateM ε σ α) state ≠ .error e last := nofun

end Sequences

theorem get_eq_ok {a state last : State} :
    (get : Action ε State) state = .ok a last ↔ state = a ∧ state = last := by
  change EStateM.Result.ok state state = .ok a last ↔ _
  simp

/-- Reading the state and going on with it. -/
theorem get_bind {f : State → Action ε β} {state : State} :
    ((get : Action ε State) >>= f) state = f state state := rfl

theorem get_ne_error {e : ε} {state last : State} :
    (get : Action ε State) state ≠ .error e last := nofun

/-! ## Basic actions -/

theorem modifySession_eq_ok {f : Session → Session} {state last : State} {u : Unit} :
    (modifySession f : Action ε Unit) state = .ok u last ↔
      { state with session := f state.session } = last := by
  change EStateM.Result.ok () _ = .ok u last ↔ _
  simp

theorem modifySession_ne_error {f : Session → Session} {e : ε} {state last : State} :
    (modifySession f : Action ε Unit) state ≠ .error e last := nofun

theorem check_eq_ok {test : State → Except BuiltinError α} {a : α} {state last : State} :
    Builtin.check test state = .ok a last ↔ test state = .ok a ∧ state = last := by
  unfold Builtin.check
  cases htest : test state with
  | ok b => simp
  | error e => simp

theorem check_eq_error {test : State → Except BuiltinError α} {e : BuiltinError}
    {state last : State} :
    Builtin.check test state = .error e last ↔ test state = .error e ∧ state = last := by
  unfold Builtin.check
  cases htest : test state with
  | ok b => simp
  | error e' => simp

theorem except_bind_eq_ok {x : Except ε α} {f : α → Except ε β} {b : β} :
    x >>= f = .ok b ↔ ∃ a, x = .ok a ∧ f a = .ok b := by
  cases x with
  | error e => exact ⟨nofun, by rintro ⟨_, ⟨⟩, -⟩⟩
  | ok a =>
    constructor
    · intro h
      exact ⟨a, rfl, h⟩
    · rintro ⟨_, ⟨⟩, h⟩
      exact h

theorem except_map_eq_ok {x : Except ε α} {f : α → β} {b : β} :
    x.map f = .ok b ↔ ∃ a, x = .ok a ∧ f a = b := by
  cases x with
  | error e => exact ⟨nofun, by rintro ⟨_, ⟨⟩, -⟩⟩
  | ok a =>
    constructor
    · intro h
      exact ⟨a, rfl, Except.ok.inj h⟩
    · rintro ⟨_, ⟨⟩, rfl⟩
      rfl

theorem except_map_eq_error {x : Except ε α} {f : α → β} {e : ε} :
    x.map f = .error e ↔ x = .error e := by
  cases x with
  | error d =>
    constructor
    · intro h
      exact congrArg _ (Except.error.inj h)
    · intro h
      exact congrArg _ (Except.error.inj h)
  | ok a => exact ⟨nofun, nofun⟩

theorem mapError_eq_ok {δ : Type} {f : δ → ε} {x : Except δ α} {a : α} :
    x.mapError f = .ok a ↔ x = .ok a := by
  cases x with
  | error d => exact ⟨nofun, nofun⟩
  | ok b =>
    constructor
    · intro h
      exact congrArg _ (Except.ok.inj h)
    · intro h
      exact congrArg _ (Except.ok.inj h)

theorem mapError_eq_error {δ : Type} {f : δ → ε} {x : Except δ α} {e : ε} :
    x.mapError f = .error e ↔ ∃ d, x = .error d ∧ f d = e := by
  cases x with
  | error d =>
    constructor
    · intro h
      exact ⟨d, rfl, Except.error.inj h⟩
    · rintro ⟨_, ⟨⟩, rfl⟩
      rfl
  | ok b =>
    constructor
    · nofun
    · rintro ⟨_, ⟨⟩, -⟩

theorem onWorld_eq_ok {δ : Type} {failure : δ → ε} {action : WorldAction δ α} {a : α}
    {state last : State} :
    State.onWorld failure action state = .ok a last ↔
      ∃ world, action state.world = .ok a world ∧ { state with world } = last := by
  unfold State.onWorld
  cases action state.world with
  | ok b world => simp [and_assoc]
  | error d world => simp

theorem onWorld_eq_error {δ : Type} {failure : δ → ε} {action : WorldAction δ α} {e : ε}
    {state last : State} :
    State.onWorld failure action state = .error e last ↔
      ∃ d world, action state.world = .error d world ∧ failure d = e ∧ { state with world } = last := by
  unfold State.onWorld
  cases action state.world with
  | ok b world => simp
  | error d world => simp [and_assoc]

theorem ofStep_eq_ok {step : World → Except ε (α × World)} {world after : World} {a : α} :
    WorldAction.ofStep step world = .ok a after ↔ step world = .ok (a, after) := by
  unfold WorldAction.ofStep
  rcases step world with e | ⟨b, reached⟩ <;> simp

/-- A step that is refused changes nothing. -/
theorem ofStep_eq_error {step : World → Except ε (α × World)} {world after : World} {e : ε} :
    WorldAction.ofStep step world = .error e after ↔ step world = .error e ∧ world = after := by
  unfold WorldAction.ofStep
  rcases step world with e | ⟨b, reached⟩ <;> simp

theorem write_eq_ok {sink : Sink} {data : Bytes} {world after : World} {u : Unit} :
    WorldAction.write sink data world = .ok u after ↔ world.write sink data = .ok after := by
  unfold WorldAction.write
  rw [ofStep_eq_ok, except_map_eq_ok]
  simp

/-- A write that is refused changes nothing. -/
theorem write_eq_error {sink : Sink} {data : Bytes} {world after : World} {cause : IoError} :
    WorldAction.write sink data world = .error cause after ↔
      world.write sink data = .error cause ∧ world = after := by
  unfold WorldAction.write
  rw [ofStep_eq_error, except_map_eq_error]

/-! ## Actions that leave the session alone -/

/-- The action leaves the session as it is, however it ends. -/
structure KeepsSession (x : Action ε α) : Prop where
  ok : ∀ {state last : State} {a : α}, x state = .ok a last → last.session = state.session
  error : ∀ {state last : State} {e : ε}, x state = .error e last → last.session = state.session

namespace KeepsSession

theorem pure (a : α) : KeepsSession (Pure.pure a : Action ε α) where
  ok h := by rw [(pure_eq_ok.1 h).2]
  error h := absurd h pure_ne_error

theorem get : KeepsSession (MonadState.get : Action ε State) where
  ok h := by rw [(get_eq_ok.1 h).2]
  error h := absurd h get_ne_error

theorem check (test : State → Except BuiltinError α) : KeepsSession (Builtin.check test) where
  ok h := by rw [(check_eq_ok.1 h).2]
  error h := by rw [(check_eq_error.1 h).2]

theorem onWorld {δ : Type} (failure : δ → ε) (action : WorldAction δ α) :
    KeepsSession (State.onWorld failure action) where
  ok := State.session_of_onWorld_ok
  error := State.session_of_onWorld_error

theorem bind {x : Action ε α} {f : α → Action ε β} (hx : KeepsSession x)
    (hf : ∀ a, KeepsSession (f a)) : KeepsSession (x >>= f) where
  ok h := by
    obtain ⟨a, middle, hfirst, hrest⟩ := bind_eq_ok.1 h
    rw [(hf a).ok hrest, hx.ok hfirst]
  error h := by
    rcases bind_eq_error.1 h with hfirst | ⟨a, middle, hfirst, hrest⟩
    · exact hx.error hfirst
    · rw [(hf a).error hrest, hx.ok hfirst]

theorem forM {ι : Type} {step : ι → Action ε PUnit} (h : ∀ i, KeepsSession (step i))
    (list : List ι) : KeepsSession (list.forM step) := by
  induction list with
  | nil => exact pure _
  | cons i list ih => exact bind (h i) fun _ => ih

end KeepsSession

/-! ## Actions with a fixed result -/

/-- The action has this result whenever it succeeds. -/
def Returns (x : Action ε α) (a : α) : Prop :=
  ∀ (state last : State) (b : α), x state = .ok b last → b = a

namespace Returns

theorem pure (a : α) : Returns (Pure.pure a : Action ε α) a := fun _ _ _ h =>
  (pure_eq_ok.1 h).1.symm

theorem bind {x : Action ε α} {f : α → Action ε β} {b : β} (hf : ∀ a, Returns (f a) b) :
    Returns (x >>= f) b := by
  intro state last b' h
  obtain ⟨a, middle, -, hrest⟩ := bind_eq_ok.1 h
  exact hf a middle last b' hrest

end Returns

end Action

/-! ## What builtins are made of -/

/-- Of the world, the function looks at the file store only. -/
def State.LooksAtStore {β : Type} (f : State → β) : Prop :=
  ∀ (session : Session) (world other : World), world.store = other.store →
    f ⟨session, world⟩ = f ⟨session, other⟩

/-- The property holds of the parts that builtins are made of, and is kept when they are put together.
Besides its outputs a builtin has the session and the file store. -/
structure Builtin.Closed (outputs : Outputs) (P : {α : Type} → BuiltinAction α → Prop) : Prop where
  pure : ∀ {α : Type} (a : α), P (Pure.pure a : BuiltinAction α)
  bind : ∀ {α β : Type} {x : BuiltinAction α} {f : α → BuiltinAction β},
    P x → (∀ a, P (f a)) → P (x >>= f)
  get_bind : ∀ {α : Type} {f : State → BuiltinAction α},
    State.LooksAtStore f → (∀ state, P (f state)) → P (get >>= f)
  check : ∀ {α : Type} {test : State → Except BuiltinError α},
    State.LooksAtStore test → P (Builtin.check test)
  modifySession : ∀ f : Session → Session, P (LineShell.modifySession f : BuiltinAction Unit)
  stdout : ∀ data : Bytes, P (Builtin.emit outputs.stdout data)
  stderr : ∀ data : Bytes, P (Builtin.emit outputs.stderr data)

namespace Builtin.Closed

variable {outputs : Outputs} {P : {α : Type} → BuiltinAction α → Prop}

theorem change (h : Closed outputs P) (f : Session → Session) (status : Status) :
    P (do LineShell.modifySession f; return status : BuiltinAction Status) :=
  h.bind (h.modifySession f) fun _ => h.pure status

/-- Output for each element of a list. -/
theorem print (h : Closed outputs P) {ι : Type} (text : ι → Bytes) (list : List ι) :
    P (do list.forM fun i => emit outputs.stdout (text i); return 0 : BuiltinAction Status) := by
  refine h.bind ?_ fun _ => h.pure 0
  induction list with
  | nil => exact h.pure _
  | cons i list ih => exact h.bind (h.stdout _) fun _ => ih

theorem runExport (h : Closed outputs P) (assignment : Text) :
    P (Builtin.runExport outputs assignment) := by
  refine h.bind (h.check fun _ _ _ _ => rfl) fun ⟨name, value⟩ => h.get_bind ?_ fun state => ?_
  · intro session world other hstore
    have hbroken : breaksSearchPath name value ⟨session, world⟩ =
        breaksSearchPath name value ⟨session, other⟩ := by
      unfold breaksSearchPath
      dsimp only
      rw [hstore]
    dsimp only
    rw [hbroken]
  · dsimp only
    split
    · exact h.bind (h.stderr _) fun _ => h.change _ _
    · exact h.change _ _

theorem runHistory (h : Closed outputs P) (operands : List Text) :
    P (Builtin.runHistory outputs operands) := by
  unfold Builtin.runHistory
  split
  · exact h.get_bind (fun _ _ _ _ => rfl) fun _ => h.print _ _
  · split
    · exact h.check fun _ _ _ _ => rfl
    · exact h.bind (h.check fun _ _ _ _ => rfl) fun _ => h.bind (h.stdout _) fun _ => h.change _ _
  · split
    · split
      · exact h.bind (h.check fun _ _ _ _ => rfl) fun _ => h.change _ _
      · exact h.check fun _ _ _ _ => rfl
    · exact h.check fun _ _ _ _ => rfl

end Builtin.Closed

open Builtin in
/-- Such a property holds of every builtin. -/
theorem Call.run_of_closed {outputs : Outputs} {P : {α : Type} → BuiltinAction α → Prop}
    (h : Closed outputs P) (call : Call) : P (call.run outputs) := by
  cases call with
  | cd target =>
    refine h.bind (h.check ?_) fun _ => h.change _ _
    intro session world other hstore
    simp only [cdDestination, hstore]
  | pwd => exact h.get_bind (fun _ _ _ _ => rfl) fun _ => h.bind (h.stdout _) fun _ => h.pure _
  | exportVariable assignment => exact h.runExport assignment
  | localVariable assignment =>
    exact h.bind (h.check fun _ _ _ _ => rfl) fun _ => h.change _ _
  | vars => exact h.get_bind (fun _ _ _ _ => rfl) fun _ => h.print _ _
  | history operands => exact h.runHistory operands
  | ls =>
    refine h.bind (h.check ?_) fun _ => h.print _ _
    intro session world other hstore
    simp only [visibleNames, hstore]
  | exit code => exact h.bind (h.check fun _ _ _ _ => rfl) fun _ => h.change _ _

end LineShell
