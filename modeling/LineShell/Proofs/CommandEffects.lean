import LineShell.Proofs.BuiltinEffects
import LineShell.Shell

/-!
# What a command line does to the session

With the default factories a command line changes the session in two ways only: it may be recorded
in the history, and the builtin that it calls may have its effect.  Programs, commands that are not
found, refused arguments, help texts and every failure leave the session alone, because they are
nothing but output (`Action.Quiet`).

`firstCommand?_default` says which command a name calls.  `runCommand_eq_ok` and
`runCommand_eq_error` are what the rest of the theory uses: an inversion of the run of a whole
command line, with its session before and after it.
-/

namespace LineShell

open LineShell.Action

/-! ## Quiet actions -/

/-- The action leaves the session alone, and its failures never call the line malformed. -/
structure Action.Quiet {α : Type} (x : Action ShellError α) : Prop where
  keepsSession : KeepsSession x
  isMalformed_eq_false : ∀ {state last : State} {e : ShellError},
    x state = .error e last → e.isMalformed = false

namespace Action.Quiet

variable {α β : Type}

theorem of_eq_error {x : Action ShellError α} (hx : Quiet x) {state last : State} {e : ShellError}
    (h : x state = .error e last) : last.session = state.session ∧ e.isMalformed = false :=
  ⟨hx.keepsSession.error h, hx.isMalformed_eq_false h⟩

theorem pure (a : α) : Quiet (Pure.pure a : Action ShellError α) where
  keepsSession := .pure a
  isMalformed_eq_false h := absurd h pure_ne_error

theorem get : Quiet (MonadState.get : Action ShellError State) where
  keepsSession := .get
  isMalformed_eq_false h := absurd h get_ne_error

theorem bind {x : Action ShellError α} {f : α → Action ShellError β} (hx : Quiet x)
    (hf : ∀ a, Quiet (f a)) : Quiet (x >>= f) where
  keepsSession := hx.keepsSession.bind fun a => (hf a).keepsSession
  isMalformed_eq_false h := by
    rcases bind_eq_error.1 h with hfirst | ⟨a, middle, -, hrest⟩
    · exact hx.isMalformed_eq_false hfirst
    · exact (hf a).isMalformed_eq_false hrest

theorem onWorld {δ : Type} {failure : δ → ShellError} {action : WorldAction δ α}
    (h : ∀ {world after : World} {e : δ}, action world = .error e after →
      (failure e).isMalformed = false) : Quiet (State.onWorld failure action) where
  keepsSession := .onWorld failure action
  isMalformed_eq_false {state last e} he := by
    unfold State.onWorld at he
    cases hrun : action state.world with
    | ok a world =>
      rw [hrun] at he
      cases he
    | error cause world =>
      rw [hrun] at he
      cases he
      exact h hrun

end Action.Quiet

/-! ## The commands of the default factories -/

namespace Command

/-- What a stream does not take is an error of that stream. -/
theorem emit_eq_error {sink : Sink} {data : Bytes} {state last : State} {e : ShellError} :
    emit sink data state = .error e last ↔
      ∃ cause, state.world.write sink data = .error cause ∧ .stream cause = e ∧ state = last := by
  simp only [emit, onWorld_eq_error, write_eq_error]
  constructor
  · rintro ⟨cause, _, ⟨hrefused, rfl⟩, rfl, rfl⟩
    exact ⟨cause, hrefused, rfl, rfl⟩
  · rintro ⟨cause, hrefused, rfl, rfl⟩
    exact ⟨cause, _, ⟨hrefused, rfl⟩, rfl, rfl⟩

theorem quiet_emit (sink : Sink) (data : Bytes) : Quiet (emit sink data) :=
  .onWorld fun _ => rfl

theorem quiet_refusal (fault : ArgumentFault) (streams : Streams) :
    Quiet (refusal fault streams) :=
  .bind (quiet_emit _ _) fun _ => .pure _

theorem quiet_help (builtin : Builtin) (streams : Streams) : Quiet (help builtin streams) :=
  .bind (quiet_emit _ _) fun _ => .pure _

theorem quiet_notFound (name : Text) (streams : Streams) : Quiet (notFound name streams) :=
  .bind (quiet_emit _ _) fun _ => .pure _

/-- A program that cannot be started and cannot say so either fails with its stream. -/
theorem isMalformed_of_start_error {environment : Environment} {path : Path} {name : Text}
    {arguments : List Text} {streams : Streams} {world after : World} {e : ShellError}
    (h : Program.start environment path name arguments streams world = .error e after) :
    e.isMalformed = false := by
  unfold Program.start at h
  split at h
  · cases h
  · dsimp only at h
    split at h
    · cases h
    · cases h
      rfl

theorem quiet_ofProgram (path : Path) (name : Text) (arguments : List Text) (streams : Streams) :
    Quiet (ofProgram path name arguments streams) :=
  .bind .get fun _ => .onWorld isMalformed_of_start_error

variable {streams : Streams} {state last : State}

/-- Telling the failure of a builtin. -/
theorem quiet_failure (failure : BuiltinError) :
    Quiet (do emit streams.stderr (ShellError.report failure.message); return (1 : Status)) :=
  .bind (quiet_emit _ _) fun _ => .pure _

/-- A builtin that has been called has its effect or leaves the session alone. -/
theorem ofCall_eq_ok {call : Call} {status : Status}
    (h : ofCall call streams state = .ok status last) :
    last.session = state.session ∨ Call.Effect state call status last.session := by
  unfold ofCall at h
  cases hrun : call.run (Outputs.ofStreams streams) state with
  | ok returned after =>
    rw [hrun] at h
    cases h
    exact .inr (Call.effect_of_run_ok hrun)
  | error failure after =>
    rw [hrun] at h
    rw [← Call.session_of_run_error hrun]
    exact .inl ((quiet_failure failure).keepsSession.ok h)

theorem ofCall_eq_error {call : Call} {e : ShellError}
    (h : ofCall call streams state = .error e last) :
    last.session = state.session ∧ e.isMalformed = false := by
  unfold ofCall at h
  cases hrun : call.run (Outputs.ofStreams streams) state with
  | ok returned after =>
    rw [hrun] at h
    cases h
  | error failure after =>
    rw [hrun] at h
    rw [← Call.session_of_run_error hrun]
    exact (quiet_failure failure).of_eq_error h

/-- A builtin has its effect, leaves the session alone, or was not called at all. -/
theorem ofBuiltin_eq_ok {builtin : Builtin} {arguments : List Text} {status : Status}
    (h : ofBuiltin builtin arguments streams state = .ok status last) :
    last.session = state.session ∨ ∃ call, builtin.read arguments = .ok (some call) ∧
      Call.Effect state call status last.session := by
  unfold ofBuiltin at h
  rcases hread : builtin.read arguments with fault | (_ | call) <;> rw [hread] at h
  · exact .inl ((quiet_refusal _ _).keepsSession.ok h)
  · exact .inl ((quiet_help _ _).keepsSession.ok h)
  · exact (ofCall_eq_ok h).imp id fun heffect => ⟨call, rfl, heffect⟩

theorem ofBuiltin_eq_error {builtin : Builtin} {arguments : List Text} {e : ShellError}
    (h : ofBuiltin builtin arguments streams state = .error e last) :
    last.session = state.session ∧ e.isMalformed = false := by
  unfold ofBuiltin at h
  rcases hread : builtin.read arguments with fault | (_ | call) <;> rw [hread] at h
  · exact (quiet_refusal _ _).of_eq_error h
  · exact (quiet_help _ _).of_eq_error h
  · exact ofCall_eq_error h

end Command

/-! ## Which command a name calls -/

namespace Factory

variable (state : State) (name : Text) (arguments : List Text)

theorem findSome?_map_ofBuiltin (builtins : List Builtin) :
    (builtins.map ofBuiltin).findSome? (fun factory => factory state name arguments) =
      (builtins.find? fun builtin => builtin.name == name).map
        fun builtin => Command.ofBuiltin builtin arguments := by
  induction builtins with
  | nil => rfl
  | cons builtin builtins ih =>
    rw [List.map_cons, List.findSome?_cons, List.find?_cons]
    by_cases h : builtin.name = name
    · simp [ofBuiltin, h]
    · have hne : (builtin.name == name) = false := beq_eq_false_iff_ne.2 h
      simp only [ofBuiltin, Ne.symm h, if_false, hne]
      exact ih

/-- The default factories make the builtin of a name if there is one, and look for a program
otherwise. -/
theorem firstCommand?_default :
    firstCommand? default state name arguments =
      match Builtin.ofName? name with
      | some builtin => some (Command.ofBuiltin builtin arguments)
      | none => ofPrograms state name arguments := by
  unfold firstCommand?
  rw [default_eq, List.findSome?_append, findSome?_map_ofBuiltin]
  unfold Builtin.ofName?
  cases Builtin.all.find? fun builtin => builtin.name == name with
  | some builtin => rfl
  | none => simp

end Factory

namespace Shell

variable {state last : State} {name : Text} {arguments : List Text} {streams : Streams}

/-- The command that a name calls, run on its streams. -/
theorem dispatch_default (name : Text) (arguments : List Text) (streams : Streams) (state : State) :
    dispatch Factory.default name arguments streams state =
      match Builtin.ofName? name with
      | some builtin => Command.ofBuiltin builtin arguments streams state
      | none =>
        match Factory.ofPrograms state name arguments with
        | some command => command streams state
        | none => Command.notFound name streams state := by
  unfold dispatch
  rw [Factory.firstCommand?_default]
  cases Builtin.ofName? name <;> rfl

/-- A command that ends without an error has left the session alone, or is a builtin that had its
effect. -/
theorem dispatch_eq_ok {status : Status}
    (h : dispatch Factory.default name arguments streams state = .ok status last) :
    last.session = state.session ∨
      ∃ (builtin : Builtin) (call : Call), builtin.name = name ∧
        builtin.read arguments = .ok (some call) ∧ Call.Effect state call status last.session := by
  rw [dispatch_default] at h
  split at h
  · next builtin hname =>
    refine (Command.ofBuiltin_eq_ok h).imp id fun ⟨call, hread, heffect⟩ => ?_
    exact ⟨builtin, call, Builtin.ofName?_eq_some_iff.1 hname, hread, heffect⟩
  · split at h
    · next command hcommand =>
      obtain ⟨path, -, rfl⟩ := Option.map_eq_some_iff.1 hcommand
      exact .inl ((Command.quiet_ofProgram _ _ _ _).keepsSession.ok h)
    · exact .inl ((Command.quiet_notFound _ _).keepsSession.ok h)

/-- A command that ends with an error has left the session alone, and its line is not malformed. -/
theorem dispatch_eq_error {e : ShellError}
    (h : dispatch Factory.default name arguments streams state = .error e last) :
    last.session = state.session ∧ e.isMalformed = false := by
  rw [dispatch_default] at h
  split at h
  · exact Command.ofBuiltin_eq_error h
  · split at h
    · next command hcommand =>
      obtain ⟨path, -, rfl⟩ := Option.map_eq_some_iff.1 hcommand
      exact (Command.quiet_ofProgram _ _ _ _).of_eq_error h
    · exact (Command.quiet_notFound _ _).of_eq_error h

end Shell

/-! ## Opening the targets -/

namespace Redirection

variable {world after : World} {e : ShellError}

theorem opening_eq_ok {α : Type} {path : Path} {step : World → Except IoError (α × World)} {a : α}
    (h : opening path step world = .ok a after) : step world = .ok (a, after) := by
  unfold opening at h
  exact mapError_eq_ok.1 (ofStep_eq_ok.1 h)

/-- What cannot be opened is named in the error, and nothing has changed. -/
theorem opening_eq_error {α : Type} {path : Path} {step : World → Except IoError (α × World)}
    (h : opening path step world = .error e after) :
    ∃ cause, step world = .error cause ∧ e = .redirection path cause ∧ after = world := by
  unfold opening at h
  obtain ⟨hfailed, rfl⟩ := ofStep_eq_error.1 h
  obtain ⟨cause, hrefused, rfl⟩ := mapError_eq_error.1 hfailed
  exact ⟨cause, hrefused, rfl, rfl⟩

theorem exists_redirection_of_opening_error {α : Type} {path : Path}
    {step : World → Except IoError (α × World)} (h : opening path step world = .error e after) :
    ∃ path cause, e = .redirection path cause := by
  obtain ⟨cause, -, rfl, -⟩ := opening_eq_error h
  exact ⟨path, cause, rfl⟩

theorem exists_redirection_of_openInput_error {environment : Environment} {path : Option Text}
    {source : Source} (h : openInput environment path source world = .error e after) :
    ∃ path cause, e = .redirection path cause := by
  cases path with
  | none => exact absurd h pure_ne_error
  | some path => exact exists_redirection_of_opening_error h

theorem exists_redirection_of_openOutput_error {environment : Environment}
    {target : Option Target} {sink : Sink}
    (h : openOutput environment target sink world = .error e after) :
    ∃ path cause, e = .redirection path cause := by
  cases target with
  | none => exact absurd h pure_ne_error
  | some target => exact exists_redirection_of_opening_error h

theorem exists_redirection_of_openAll_error {targets : Targets} {environment : Environment}
    {streams : Streams} (h : targets.openAll environment streams world = .error e after) :
    ∃ path cause, e = .redirection path cause := by
  unfold Targets.openAll at h
  rcases bind_eq_error.1 h with hstdin | ⟨_, _, -, h⟩
  · exact exists_redirection_of_openInput_error hstdin
  rcases bind_eq_error.1 h with hstdout | ⟨_, _, -, h⟩
  · exact exists_redirection_of_openOutput_error hstdout
  rcases bind_eq_error.1 h with hstderr | ⟨_, _, -, h⟩
  · exact exists_redirection_of_openOutput_error hstderr
  cases hcombined : targets.combined with
  | none =>
    rw [hcombined] at h
    exact absurd h pure_ne_error
  | some target =>
    rw [hcombined] at h
    rcases bind_eq_error.1 h with hboth | ⟨_, _, -, hpure⟩
    · exact exists_redirection_of_openOutput_error hboth
    · exact absurd hpure pure_ne_error

/-- A target that cannot be opened does not make its line malformed. -/
theorem isMalformed_of_openAll_error {targets : Targets} {environment : Environment}
    {streams : Streams} (h : targets.openAll environment streams world = .error e after) :
    e.isMalformed = false := by
  obtain ⟨path, cause, rfl⟩ := exists_redirection_of_openAll_error h
  rfl

end Redirection

/-! ## Running a command line -/

namespace Shell

variable {factories : List Factory} {line : CommandLine} {record : Bool} {state last : State}

/-- The session that a command starts with: its line is recorded if that is asked for. -/
def startingSession (line : CommandLine) (record : Bool) (session : Session) : Session :=
  match (line.expand session.scope).arguments with
  | [] => session
  | name :: _ => if record then recordLine line.text name session else session

/-- A line that calls a builtin is not recorded. -/
theorem startingSession_of_builtin {session : Session} {builtin : Builtin} {arguments : List Text}
    (h : (line.expand session.scope).arguments = builtin.name :: arguments) :
    startingSession line record session = session := by
  have hname : Builtin.isName builtin.name = true := Builtin.isName_iff.2 ⟨builtin, rfl⟩
  have hsame : recordLine line.text builtin.name session = session := by
    simp [recordLine, History.record, History.accepts, hname]
  unfold startingSession
  rw [h]
  dsimp only
  rw [hsame, ite_self]

/-- A line that expands to nothing does nothing. -/
theorem runCommand_of_arguments_eq_nil
    (h : (line.expand state.session.scope).arguments = []) :
    runCommand factories line record state = .ok 0 state := by
  unfold runCommand
  rw [get_bind]
  dsimp only
  rw [h]
  rfl

/-- Any other line is recorded before its targets are opened. -/
theorem runCommand_of_arguments_eq_cons {name : Text} {arguments : List Text}
    (h : (line.expand state.session.scope).arguments = name :: arguments) :
    runCommand factories line record state =
      runNamed factories (line.expand state.session.scope).targets name arguments
        { state with session := startingSession line record state.session } := by
  unfold runCommand startingSession
  rw [get_bind]
  dsimp only
  rw [h]
  cases record <;> rfl

/-- Opening the targets of a command is quiet. -/
theorem quiet_openAll (targets : Redirection.Targets) (environment : Environment)
    (streams : Streams) : Quiet (State.onWorld id (targets.openAll environment streams)) :=
  .onWorld Redirection.isMalformed_of_openAll_error

/-- A command line that ends without an error leaves the session as it started with it, or calls a
builtin that has its effect on the session as it was. -/
theorem runCommand_eq_ok {status : Status}
    (h : runCommand Factory.default line record state = .ok status last) :
    last.session = startingSession line record state.session ∨
      ∃ (builtin : Builtin) (arguments : List Text) (call : Call) (world : World),
        (line.expand state.session.scope).arguments = builtin.name :: arguments ∧
          builtin.read arguments = .ok (some call) ∧
            Call.Effect ⟨state.session, world⟩ call status last.session := by
  cases harguments : (line.expand state.session.scope).arguments with
  | nil =>
    rw [runCommand_of_arguments_eq_nil harguments] at h
    cases h
    left
    simp only [startingSession, harguments]
  | cons name arguments =>
    rw [runCommand_of_arguments_eq_cons harguments] at h
    obtain ⟨_, started, hget, h⟩ := bind_eq_ok.1 h
    obtain ⟨rfl, rfl⟩ := get_eq_ok.1 hget
    obtain ⟨streams, opened, hopen, hrun⟩ := bind_eq_ok.1 h
    have hopened : opened.session = startingSession line record state.session :=
      (quiet_openAll _ _ _).keepsSession.ok hopen
    rcases dispatch_eq_ok hrun with hsame | ⟨builtin, call, rfl, hread, heffect⟩
    · left
      rw [hsame, hopened]
    · right
      rw [startingSession_of_builtin harguments] at hopened
      refine ⟨builtin, arguments, call, opened.world, rfl, hread, ?_⟩
      rw [← hopened]
      exact heffect

/-- A command line that ends with an error leaves the session as it started with it, and is not
called malformed. -/
theorem runCommand_eq_error {e : ShellError}
    (h : runCommand Factory.default line record state = .error e last) :
    last.session = startingSession line record state.session ∧ e.isMalformed = false := by
  cases harguments : (line.expand state.session.scope).arguments with
  | nil =>
    rw [runCommand_of_arguments_eq_nil harguments] at h
    cases h
  | cons name arguments =>
    rw [runCommand_of_arguments_eq_cons harguments] at h
    rcases bind_eq_error.1 h with hget | ⟨_, started, hget, h⟩
    · exact absurd hget get_ne_error
    obtain ⟨rfl, rfl⟩ := get_eq_ok.1 hget
    rcases bind_eq_error.1 h with hopen | ⟨streams, opened, hopen, hrun⟩
    · exact (quiet_openAll _ _ _).of_eq_error hopen
    · obtain ⟨hsame, hfault⟩ := dispatch_eq_error hrun
      refine ⟨?_, hfault⟩
      rw [hsame]
      exact (quiet_openAll _ _ _).keepsSession.ok hopen

end Shell

end LineShell
