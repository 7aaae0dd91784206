import LineShell.Proofs.CommandOutputs
import LineShell.Proofs.LineEffects

/-!
# The statuses of commands

Which status a command line of the default factories ends with depends on how far it comes.  A line
that expands to nothing has the status 0, and a target that cannot be opened gives 1.  From there on
`DispatchStatus` has a field for everything that can become of a name: it calls a builtin, which is
refused its arguments, shows its help, fails or succeeds; it calls a program, which cannot be started,
exits or is killed; or it is not found.

Most of these cases end with something to be told on a stream.  If the stream does not take it, that
is an error of its own, with the status 1 (`World.Tells`).
-/

namespace LineShell

open LineShell.Action

/-- The status of a run, which ended on its own account or with an error. -/
def statusOf : EStateM.Result ShellError State Status → Status
  | .ok status _ => status
  | .error error _ => error.status

/-- A stream is told something.  The status is the usual one, or 1 if the stream does not take it. -/
inductive World.Tells (world : World) (sink : Sink) (data : Bytes) (usual : Status) : Status → Prop
  | taken {after : World} (taken : world.write sink data = .ok after) : Tells world sink data usual usual
  | refused {cause : IoError} (refused : world.write sink data = .error cause) :
      Tells world sink data usual 1

theorem World.Tells.eq_one {world : World} {sink : Sink} {data : Bytes} {status : Status}
    (h : world.Tells sink data 1 status) : status = 1 := by
  cases h with
  | taken => rfl
  | refused => rfl

/-- The name calls no builtin, and this is the program that is found for it. -/
def State.Finds (state : State) (name : Text) (found : Option Path) : Prop :=
  (∀ builtin, Builtin.name builtin ≠ name) ∧
    Program.findIn? state.world.store state.session.environment name = found

/-- The program at a path, ready to run, or the reason why it cannot be started. -/
def State.prepared (state : State) (path : Path) (name : Text) (arguments : List Text)
    (streams : Streams) : Except IoError Program.Process :=
  Program.prepare state.world state.session.environment path (name :: arguments)
    (streams.forProgram state.world.console.kind)

/-- The status of the command that a name calls, on streams that are open. -/
structure DispatchStatus (state : State) (name : Text) (arguments : List Text) (streams : Streams)
    (status : Status) : Prop where
  /-- A builtin that does not take its arguments. -/
  refused : ∀ builtin fault, Builtin.name builtin = name → builtin.read arguments = .error fault →
    status = 1
  help : ∀ builtin, Builtin.name builtin = name → builtin.read arguments = .ok none →
    state.world.Tells streams.stdout (Command.helpOutput builtin) 0 status
  failed : ∀ builtin call failure after, Builtin.name builtin = name →
    builtin.read arguments = .ok (some call) →
      call.run (Outputs.ofStreams streams) state = .error failure after → status = 1
  succeeded : ∀ builtin call returned after, Builtin.name builtin = name →
    builtin.read arguments = .ok (some call) →
      call.run (Outputs.ofStreams streams) state = .ok returned after → status = returned
  notFound : state.Finds name none → state.world.Tells streams.stderr
    (ShellError.report (ShellError.notFound name).message) 127 status
  notStarted : ∀ path cause, state.Finds name (some path) →
    state.prepared path name arguments streams = .error cause → state.world.Tells streams.stderr
      (ShellError.report (ShellError.notStarted name cause).message) 126 status
  exited : ∀ path process code, state.Finds name (some path) →
    state.prepared path name arguments streams = .ok process →
      (Program.run process state.world).1 = .exited code → status = code % 256
  killed : ∀ path process signal, state.Finds name (some path) →
    state.prepared path name arguments streams = .ok process →
      (Program.run process state.world).1 = .killed signal → status = 128 + signal

/-- The status of a command line. -/
structure CommandStatus (state : State) (command : CommandLine) (record : Bool) (status : Status) :
    Prop where
  empty : (command.expand state.session.scope).arguments = [] → status = 0
  unopened : ∀ error after, (command.expand state.session.scope).arguments ≠ [] →
    (command.expand state.session.scope).targets.openAll state.session.environment .ofConsole
      state.world = .error error after → status = 1
  opened : ∀ name arguments streams opened,
    (command.expand state.session.scope).arguments = name :: arguments →
      (command.expand state.session.scope).targets.openAll state.session.environment .ofConsole
        state.world = .ok streams opened →
        DispatchStatus ⟨Shell.startingSession command record state.session, opened⟩ name arguments
          streams status

/-! ## Commands -/

namespace Command

variable {state : State} {name : Text} {arguments : List Text} {streams : Streams}

/-- Telling something and returning the usual status. -/
theorem tells_emit (sink : Sink) (data : Bytes) (usual : Status) (state : State) :
    state.world.Tells sink data usual
      (statusOf ((do emit sink data; return usual : Action ShellError Status) state)) := by
  cases hwrite : state.world.write sink data with
  | ok after =>
    have hemit : emit sink data state = .ok () { state with world := after } :=
      onWorld_eq_ok.2 ⟨after, write_eq_ok.2 hwrite, rfl⟩
    rw [bind_of_eq_ok hemit]
    exact .taken hwrite
  | error cause =>
    have hemit : emit sink data state = .error (.stream cause) state :=
      emit_eq_error.2 ⟨cause, hwrite, rfl, rfl⟩
    rw [bind_eq_error.2 (.inl hemit)]
    exact .refused hwrite

end Command

namespace Shell

open Command

variable {state : State} {name : Text} {arguments : List Text} {streams : Streams}

theorem dispatch_of_builtin {builtin : Builtin} (h : builtin.name = name) :
    dispatch Factory.default name arguments streams state =
      ofBuiltin builtin arguments streams state := by
  rw [dispatch_default, Builtin.ofName?_eq_some_iff.2 h]

theorem dispatch_of_finds {found : Option Path} (h : state.Finds name found) :
    dispatch Factory.default name arguments streams state =
      found.elim (notFound name streams state) fun path =>
        ofProgram path name arguments streams state := by
  obtain ⟨hnone, rfl⟩ := h
  have hbuiltin : Builtin.ofName? name = none :=
    Option.eq_none_iff_forall_ne_some.2 fun builtin hname =>
      hnone builtin (Builtin.ofName?_eq_some_iff.1 hname)
  rw [dispatch_default, hbuiltin]
  unfold Factory.ofPrograms
  cases Program.findIn? state.world.store state.session.environment name <;> rfl

/-- A program that cannot be started is told of. -/
theorem tells_ofProgram {path : Path} {cause : IoError}
    (h : state.prepared path name arguments streams = .error cause) :
    state.world.Tells streams.stderr (ShellError.report (ShellError.notStarted name cause).message)
      126 (statusOf (ofProgram path name arguments streams state)) := by
  unfold State.prepared at h
  unfold ofProgram
  rw [get_bind]
  unfold State.onWorld Program.start
  rw [h]
  dsimp only
  cases hwrite : state.world.write streams.stderr
      (ShellError.report (ShellError.notStarted name cause).message) with
  | ok after => exact .taken hwrite
  | error refused => exact .refused hwrite

theorem statusOf_ofProgram {path : Path} {process : Program.Process}
    (h : state.prepared path name arguments streams = .ok process) :
    statusOf (ofProgram path name arguments streams state) =
      (Program.run process state.world).1.status := by
  unfold State.prepared at h
  unfold ofProgram
  rw [get_bind]
  unfold State.onWorld Program.start
  rw [h]
  rfl

theorem dispatchStatus (state : State) (name : Text) (arguments : List Text) (streams : Streams) :
    DispatchStatus state name arguments streams
      (statusOf (dispatch Factory.default name arguments streams state)) where
  refused builtin fault hname hread := by
    rw [dispatch_of_builtin hname]
    unfold ofBuiltin
    rw [hread]
    exact (tells_emit _ _ 1 state).eq_one
  help builtin hname hread := by
    rw [dispatch_of_builtin hname]
    unfold ofBuiltin
    rw [hread]
    exact tells_emit _ _ 0 state
  failed builtin call failure after hname hread hrun := by
    rw [dispatch_of_builtin hname]
    unfold ofBuiltin
    rw [hread]
    dsimp only
    unfold ofCall
    rw [hrun]
    exact (tells_emit _ _ 1 after).eq_one
  succeeded builtin call returned after hname hread hrun := by
    rw [dispatch_of_builtin hname]
    unfold ofBuiltin
    rw [hread]
    dsimp only
    unfold ofCall
    rw [hrun]
    rfl
  notFound hfinds := by
    rw [dispatch_of_finds hfinds]
    exact tells_emit _ _ 127 state
  notStarted path cause hfinds hprepared := by
    rw [dispatch_of_finds hfinds]
    exact tells_ofProgram hprepared
  exited path process code hfinds hprepared hexited := by
    rw [dispatch_of_finds hfinds, Option.elim_some, statusOf_ofProgram hprepared, hexited]
    rfl
  killed path process signal hfinds hprepared hkilled := by
    rw [dispatch_of_finds hfinds, Option.elim_some, statusOf_ofProgram hprepared, hkilled]
    rfl

/-! ## Command lines -/

theorem commandStatus (state : State) (command : CommandLine) (record : Bool) :
    CommandStatus state command record
      (statusOf (runCommand Factory.default command record state)) where
  empty hempty := by
    rw [runCommand_of_arguments_eq_nil hempty]
    rfl
  unopened error after harguments hopen := by
    obtain ⟨name, arguments, harguments⟩ := List.exists_cons_of_ne_nil harguments
    obtain ⟨path, cause, rfl⟩ := Redirection.exists_redirection_of_openAll_error hopen
    rw [runCommand_of_openAll_error harguments hopen]
    rfl
  opened name arguments streams opened harguments hopen := by
    rw [runCommand_of_openAll harguments hopen]
    exact dispatchStatus _ name arguments streams

/-- The status of a line is that of its command line. -/
theorem status_runLine {factories : List Factory} {line : Text} {command : CommandLine}
    {record : Bool} (hread : CommandLine.read line = .command command) :
    (runLine factories state line record).status =
      statusOf (runCommand factories command record state) := by
  unfold runLine
  rw [hread]
  dsimp only
  cases runCommand factories command record state with
  | ok status after => rfl
  | error error after =>
    dsimp only
    split <;> rfl

end Shell

end LineShell
