import LineShell.Proofs.CommandEffects
import LineShell.Proofs.OutputFrames

/-!
# Where a command writes

Every command of the default factories writes to its two outputs only (`Shell.writesTo_dispatch`).
That is plain for the builtins, which are given nothing else.  A program may share the console of
the shell, but then it has it from the streams of its command.

What a command could not do it tells on its standard error.  If that takes everything, the command
ends with an error in one case only: it is asked for the help of a builtin, and its standard output
does not take the text (`Shell.dispatch_eq_error_iff`).
-/

namespace LineShell

open LineShell.Action

/-! ## Builtins -/

theorem Builtin.closed_writesTo (streams : Streams) :
    Closed (Outputs.ofStreams streams) (WritesTo streams) where
  pure := .pure
  bind := .bind
  get_bind _ hf := .bind .get hf
  check _ := .check _
  modifySession := .modifySession
  stdout data := .write BuiltinError.output data (.inl rfl)
  stderr data := .write BuiltinError.output data (.inr rfl)

/-- A builtin has no other outputs than those of its command. -/
theorem Call.writesTo_run (call : Call) (streams : Streams) :
    WritesTo streams (call.run (Outputs.ofStreams streams)) :=
  call.run_of_closed (Builtin.closed_writesTo streams)

/-! ## Programs -/

namespace Program

variable {world after : World} {streams : Streams}

/-- A program that is prepared has the exported variables, the streams and the directory that it was
given. -/
theorem prepare_eq_ok {environment : Environment} {path : Path} {arguments : List Text}
    {process : Process} (h : prepare world environment path arguments streams = .ok process) :
    ∃ directory launched, world.store.lookUp environment.directory = .ok directory ∧
      launch world.store world.beingWritten directory maxNesting path
        (arguments.map Utf8.encode) = .ok launched ∧
      process =
        { tool := launched.tool
          arguments := launched.arguments
          environment := environment.exported.toList
          directory
          streams } := by
  unfold prepare at h
  split at h
  · cases h
  dsimp only at h
  cases hdirectory : world.store.lookUp environment.directory with
  | error cause =>
    rw [hdirectory] at h
    cases h
  | ok directory =>
    rw [hdirectory] at h
    change (if world.store.isDirectory directory = false then _ else _) = _ at h
    split at h
    · cases h
    · cases hlaunch : launch world.store world.beingWritten directory maxNesting path
          (arguments.map Utf8.encode) with
      | error code =>
        rw [hlaunch] at h
        cases h
      | ok launched =>
        rw [hlaunch] at h
        cases h
        exact ⟨directory, launched, rfl, hlaunch, rfl⟩

theorem streams_of_prepare {environment : Environment} {path : Path} {arguments : List Text}
    {process : Process} (h : prepare world environment path arguments streams = .ok process) :
    process.streams = streams := by
  obtain ⟨directory, launched, -, -, rfl⟩ := prepare_eq_ok h
  rfl

theorem frame_run (process : Process) (world : World) :
    World.Frame process.streams world (run process world).2 := by
  unfold run
  dsimp only
  cases process.tool with
  | echo | showArguments | env | cwd => exact .tryWrite _ _ (.inl rfl)
  | both => exact (World.Frame.tryWrite _ _ (.inl rfl)).trans (.tryWrite _ _ (.inr rfl))
  | status | kill | succeed | fail => exact .refl _ _
  | cat =>
    dsimp only
    split
    · next hread => exact (World.Frame.read _ hread).trans (.tryWrite _ _ (.inl rfl))
    · exact .tryWrite _ _ (.inr rfl)

variable {environment : Environment} {path : Path} {name : Text} {arguments : List Text}

theorem frame_start {status : Status}
    (h : start environment path name arguments streams world = .ok status after) :
    World.Frame streams world after := by
  unfold start at h
  split at h
  · next process hprocess =>
    cases h
    have hframe := frame_run process world
    rw [streams_of_prepare hprocess] at hframe
    exact hframe.of_forProgram
  · dsimp only at h
    split at h
    · next hwrite =>
      cases h
      exact .write hwrite (.inr rfl)
    · cases h

/-- Starting a program fails only with the standard error that should tell why. -/
theorem start_eq_error {e : ShellError}
    (h : start environment path name arguments streams world = .error e after) :
    world = after ∧ ¬ world.Accepts streams.stderr := by
  unfold start at h
  split at h
  · cases h
  · dsimp only at h
    split at h
    · cases h
    · next hrefused =>
      cases h
      exact ⟨rfl, fun haccepts => haccepts.write_ne_error hrefused⟩

end Program

/-! ## Commands -/

namespace Command

variable {streams : Streams} {state last : State} {e : ShellError}

theorem writesTo_emit {sink : Sink} (data : Bytes) (status : Status)
    (hsink : sink = streams.stdout ∨ sink = streams.stderr) :
    WritesTo streams (do emit sink data; return status : Action ShellError Status) :=
  .bind (.write ShellError.stream data hsink) fun _ => .pure status

/-- Writing to a sink that takes everything cannot fail. -/
theorem emit_ne_error {sink : Sink} (haccepts : state.world.Accepts sink) (data : Bytes)
    (status : Status) :
    (do emit sink data; return status : Action ShellError Status) state ≠ .error e last := by
  intro h
  rcases bind_eq_error.1 h with hemit | ⟨_, _, -, hreturn⟩
  · obtain ⟨cause, hrefused, -, -⟩ := emit_eq_error.1 hemit
    exact haccepts.write_ne_error hrefused
  · exact pure_ne_error hreturn

theorem writesTo_ofCall (call : Call) (streams : Streams) :
    WritesTo streams (ofCall call streams) := by
  have hrun := call.writesTo_run streams
  have htell (failure : BuiltinError) : WritesTo streams (do
      emit streams.stderr (ShellError.report failure.message)
      return (1 : Status) : Action ShellError Status) :=
    writesTo_emit _ _ (.inr rfl)
  constructor
  · intro state last status h
    unfold ofCall at h
    split at h
    · next hok =>
      cases h
      exact hrun.ok hok
    · next failure middle herror => exact (hrun.error herror).trans ((htell failure).ok h)
  · intro state last e h
    unfold ofCall at h
    split at h
    · cases h
    · next failure middle herror => exact (hrun.error herror).trans ((htell failure).error h)

/-- A builtin that fails and can tell so does not end with an error. -/
theorem ofCall_ne_error {call : Call} (haccepts : state.world.Accepts streams.stderr) :
    ofCall call streams state ≠ .error e last := by
  intro h
  unfold ofCall at h
  split at h
  · cases h
  · next herror =>
    exact emit_ne_error (((call.writesTo_run streams).error herror).accepts haccepts) _ _ h

theorem writesTo_ofBuiltin (builtin : Builtin) (arguments : List Text) (streams : Streams) :
    WritesTo streams (ofBuiltin builtin arguments streams) := by
  unfold ofBuiltin
  rcases builtin.read arguments with fault | (_ | call)
  · exact writesTo_emit _ _ (.inr rfl)
  · exact writesTo_emit _ _ (.inl rfl)
  · exact writesTo_ofCall call streams

theorem writesTo_ofProgram (path : Path) (name : Text) (arguments : List Text)
    (streams : Streams) : WritesTo streams (ofProgram path name arguments streams) := by
  refine .bind .get fun state => ?_
  constructor
  · intro state last status h
    obtain ⟨world, hstart, rfl⟩ := onWorld_eq_ok.1 h
    exact Program.frame_start hstart
  · intro state last e h
    obtain ⟨_, world, hstart, -, rfl⟩ := onWorld_eq_error.1 h
    exact (Program.start_eq_error hstart).1 ▸ .refl streams _

theorem ofProgram_ne_error {path : Path} {name : Text} {arguments : List Text}
    (haccepts : state.world.Accepts streams.stderr) :
    ofProgram path name arguments streams state ≠ .error e last := by
  intro h
  rcases bind_eq_error.1 h with hget | ⟨_, middle, hget, hstart⟩
  · exact get_ne_error hget
  · obtain ⟨rfl, rfl⟩ := get_eq_ok.1 hget
    obtain ⟨_, world, hrefused, -, -⟩ := onWorld_eq_error.1 hstart
    exact (Program.start_eq_error hrefused).2 haccepts

/-- What the help of a builtin writes. -/
def helpOutput (builtin : Builtin) : Bytes := Builtin.outputLine (Text.trimEnd builtin.help)

theorem help_eq_error {builtin : Builtin} :
    help builtin streams state = .error e last ↔
      ∃ cause, state.world.write streams.stdout (helpOutput builtin) = .error cause ∧
        .stream cause = e ∧ state = last := by
  rw [← emit_eq_error]
  constructor
  · intro h
    rcases bind_eq_error.1 h with hemit | ⟨_, _, -, hreturn⟩
    · exact hemit
    · exact absurd hreturn pure_ne_error
  · exact fun h => bind_eq_error.2 (.inl h)

/-- The arguments, the name first, ask for the help of a builtin, and the standard output does not
take it. -/
def HelpRefused (arguments : List Text) (stdout : Sink) (world : World) (cause : IoError) : Prop :=
  ∃ (builtin : Builtin) (rest : List Text), arguments = builtin.name :: rest ∧
    builtin.read rest = .ok none ∧ world.write stdout (helpOutput builtin) = .error cause

end Command

namespace Shell

open Command

variable {name : Text} {arguments : List Text} {streams : Streams} {state last : State}

/-- A name calls a builtin or a program, or is not found. -/
theorem dispatch_cases (name : Text) (arguments : List Text) (streams : Streams) (state : State) :
    (∃ builtin : Builtin, builtin.name = name ∧
      dispatch Factory.default name arguments streams state =
        ofBuiltin builtin arguments streams state) ∨
      (∀ builtin : Builtin, builtin.name ≠ name) ∧
        ((∃ path, dispatch Factory.default name arguments streams state =
          ofProgram path name arguments streams state) ∨
            dispatch Factory.default name arguments streams state = notFound name streams state) := by
  rw [dispatch_default]
  cases hname : Builtin.ofName? name with
  | some builtin => exact .inl ⟨builtin, Builtin.ofName?_eq_some_iff.1 hname, rfl⟩
  | none =>
    refine .inr ⟨fun builtin h => ?_, ?_⟩
    · rw [Builtin.ofName?_eq_some_iff.2 h] at hname
      cases hname
    · dsimp only
      cases hcommand : Factory.ofPrograms state name arguments with
      | some command =>
        obtain ⟨path, -, rfl⟩ := Option.map_eq_some_iff.1 hcommand
        exact .inl ⟨path, rfl⟩
      | none => exact .inr rfl

/-- A command writes to its two outputs. -/
theorem writesTo_dispatch (name : Text) (arguments : List Text) (streams : Streams) :
    WritesTo streams (dispatch Factory.default name arguments streams) := by
  have hcommand (state : State) : ∃ command, WritesTo streams command ∧
      dispatch Factory.default name arguments streams state = command state := by
    rcases dispatch_cases name arguments streams state with
      ⟨builtin, -, hbuiltin⟩ | ⟨-, ⟨path, hprogram⟩ | hnotFound⟩
    · exact ⟨_, writesTo_ofBuiltin builtin arguments streams, hbuiltin⟩
    · exact ⟨_, writesTo_ofProgram path name arguments streams, hprogram⟩
    · exact ⟨_, writesTo_emit _ _ (.inr rfl), hnotFound⟩
  constructor
  · intro state last status h
    obtain ⟨command, hwrites, hdispatch⟩ := hcommand state
    exact hwrites.ok (hdispatch.symm.trans h)
  · intro state last e h
    obtain ⟨command, hwrites, hdispatch⟩ := hcommand state
    exact hwrites.error (hdispatch.symm.trans h)

/-- With its standard error taking everything a command ends with an error if and only if it cannot
show a help text. -/
theorem dispatch_eq_error_iff {e : ShellError} (haccepts : state.world.Accepts streams.stderr) :
    dispatch Factory.default name arguments streams state = .error e last ↔
      ∃ cause, HelpRefused (name :: arguments) streams.stdout state.world cause ∧
        .stream cause = e ∧ state = last := by
  rcases dispatch_cases name arguments streams state with
    ⟨called, hname, hbuiltin⟩ | ⟨hnone, hcommand⟩
  · rw [hbuiltin, ofBuiltin]
    have hhelp (cause : IoError) :
        HelpRefused (name :: arguments) streams.stdout state.world cause ↔
          called.read arguments = .ok none ∧
            state.world.write streams.stdout (helpOutput called) = .error cause := by
      constructor
      · rintro ⟨builtin, rest, hwords, hread, hrefused⟩
        obtain ⟨hsame, rfl⟩ := List.cons.inj hwords
        cases Builtin.name_injective (hname.trans hsame)
        exact ⟨hread, hrefused⟩
      · exact fun h => ⟨called, arguments, by rw [hname], h⟩
    simp only [hhelp]
    rcases called.read arguments with fault | (_ | call)
    · exact iff_of_false (emit_ne_error haccepts _ _) fun ⟨_, ⟨hread, _⟩, _⟩ => nomatch hread
    · simp [help_eq_error]
    · exact iff_of_false (ofCall_ne_error haccepts) fun ⟨_, ⟨hread, _⟩, _⟩ => nomatch hread
  · constructor
    · intro h
      rcases hcommand with ⟨path, hprogram⟩ | hnotFound
      · exact absurd (hprogram.symm.trans h) (ofProgram_ne_error haccepts)
      · exact absurd (hnotFound.symm.trans h) (emit_ne_error haccepts _ _)
    · rintro ⟨cause, ⟨builtin, rest, hwords, -, -⟩, -, -⟩
      exact absurd (List.cons.inj hwords).1.symm (hnone builtin)

end Shell

end LineShell
