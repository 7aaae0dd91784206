import LineShell.Proofs.CommandEffects

/-!
# Builtins that fail

A builtin is refused because of its arguments, or it is called and fails.  What makes a call fail is
a check of the session or of the file store, or an output that does not take what is written to it.
In all of these cases the session is the one from before the call in every part, and the command ends
with status 1.

That a refused write is among the failures has to be said apart: a builtin that went on without its
output would not fail at all.  Two builtins write something before they change the session, `export`
its warning about an unusable search path and `history` the entry that it is about to replay.
-/

namespace LineShell

open LineShell.Action

/-! ## Outputs that take nothing -/

/-- Nothing can be written to the output. -/
def WorldAction.Refuses (output : Bytes → WorldAction IoError Unit) : Prop :=
  ∀ data world, ∃ cause after, output data world = .error cause after

namespace Builtin

/-- A write that is refused ends the builtin. -/
theorem exists_emit_eq_error {output : Bytes → WorldAction IoError Unit}
    (h : WorldAction.Refuses output) (data : Bytes) (state : State) :
    ∃ e last, emit output data state = .error e last := by
  obtain ⟨cause, after, hrefused⟩ := h data state.world
  exact ⟨_, _, onWorld_eq_error.2 ⟨cause, after, hrefused, rfl, rfl⟩⟩

end Builtin

namespace Call

variable {outputs : Outputs}

/-- `export` fails if it cannot warn about the search path. -/
theorem exists_run_export_eq_error (h : WorldAction.Refuses outputs.stderr) {value : Text}
    {state : State}
    (hunusable : Program.isUsableSearchPath state.world.store state.session.environment value =
      false) :
    ∃ e last, (exportVariable (Program.searchVariable ++ '=' :: value)).run outputs state =
      .error e last := by
  have hvalid : Builtin.exportAssignment (Program.searchVariable ++ '=' :: value) =
      .ok (Program.searchVariable, value) := rfl
  have hbroken : Builtin.breaksSearchPath Program.searchVariable value state = true := by
    unfold Builtin.breaksSearchPath
    rw [hunusable]
    rfl
  obtain ⟨e, last, hwarn⟩ :=
    Builtin.exists_emit_eq_error h (Builtin.searchPathWarning value) state
  refine ⟨e, last, ?_⟩
  refine bind_eq_error.2 (.inr ⟨_, state, check_eq_ok.2 ⟨hvalid, rfl⟩, ?_⟩)
  refine bind_eq_error.2 (.inr ⟨_, state, get_eq_ok.2 ⟨rfl, rfl⟩, ?_⟩)
  dsimp only
  rw [if_pos hbroken]
  exact bind_eq_error.2 (.inl hwarn)

/-- `history` fails if it cannot show the entry that it is asked for. -/
theorem exists_run_history_eq_error (h : WorldAction.Refuses outputs.stdout) (operand : Text)
    (state : State) : ∃ e last, (history [operand]).run outputs state = .error e last := by
  rw [run, Builtin.runHistory]
  split
  · exact ⟨.missingSize, state, rfl⟩
  · cases hentry : Builtin.historyEntry operand state with
    | error e => exact ⟨e, state, bind_eq_error.2 (.inl (check_eq_error.2 ⟨hentry, rfl⟩))⟩
    | ok entry =>
      obtain ⟨e, last, hshow⟩ :=
        Builtin.exists_emit_eq_error h (Builtin.outputLine entry) state
      refine ⟨e, last, bind_eq_error.2 (.inr ⟨entry, state, check_eq_ok.2 ⟨hentry, rfl⟩, ?_⟩)⟩
      exact bind_eq_error.2 (.inl hshow)

end Call

/-! ## The command of a builtin that fails -/

namespace Command

/-- The command has failed: it ends with status 1, if not by itself then by an error, and the session
is as it was. -/
structure Fails (command : Action ShellError Status) (state : State) : Prop where
  ok : ∀ {status : Status} {last : State}, command state = .ok status last →
    status = 1 ∧ last.session = state.session
  error : ∀ {e : ShellError} {last : State}, command state = .error e last →
    e.status = 1 ∧ last.session = state.session

variable {builtin : Builtin} {arguments : List Text} {streams : Streams} {state : State}

/-- Telling why a command has failed. -/
theorem fails_emit (sink : Sink) (data : Bytes) (state : State) :
    Fails (do emit sink data; return (1 : Status)) state := by
  have hquiet : KeepsSession (do emit sink data; return (1 : Status)) :=
    .bind (.onWorld _ _) fun _ => .pure _
  constructor
  · intro status last h
    obtain ⟨_, _, -, hreturn⟩ := bind_eq_ok.1 h
    exact ⟨(pure_eq_ok.1 hreturn).1.symm, hquiet.ok h⟩
  · intro e last h
    refine ⟨?_, hquiet.error h⟩
    rcases bind_eq_error.1 h with hemit | ⟨_, _, -, hreturn⟩
    · obtain ⟨_, -, rfl, -⟩ := emit_eq_error.1 hemit
      rfl
    · exact absurd hreturn pure_ne_error

/-- A builtin that refuses its arguments has failed. -/
theorem fails_of_read_eq_error {fault : ArgumentFault} (h : builtin.read arguments = .error fault)
    (streams : Streams) (state : State) : Fails (ofBuiltin builtin arguments streams) state := by
  unfold ofBuiltin
  rw [h]
  exact fails_emit _ _ _

/-- A builtin whose call fails has failed, whether or not it can tell why. -/
theorem fails_of_run_eq_error {call : Call} (hread : builtin.read arguments = .ok (some call))
    {e : BuiltinError} {failed : State}
    (h : call.run (Outputs.ofStreams streams) state = .error e failed) :
    Fails (ofBuiltin builtin arguments streams) state := by
  have hcommand : ofBuiltin builtin arguments streams state =
      (do emit streams.stderr (ShellError.report e.message); return (1 : Status) :
        Action ShellError Status) failed := by
    unfold ofBuiltin
    rw [hread]
    dsimp only
    unfold ofCall
    rw [h]
  have hsession := Call.session_of_run_error h
  have hfails := fails_emit streams.stderr (ShellError.report e.message) failed
  constructor
  · intro status last hok
    rw [← hsession]
    exact hfails.ok (hcommand ▸ hok)
  · intro error last herror
    rw [← hsession]
    exact hfails.error (hcommand ▸ herror)

end Command

/-! ## Failures -/

/-- A builtin that fails leaves the session as it was, whatever its outputs are, and its command ends
with status 1.  Refused arguments are such a failure, and a builtin that is only asked for its help
leaves the session alone as well.  A search path without a directory that `export` cannot warn of and
an entry that `history` cannot show are failures, too: the one is not assigned and raises no flag, the
other is not queued. -/
theorem Builtin.failure_keeps_session (builtin : Builtin) (arguments : List Text) (state : State) :
    (∀ fault, builtin.read arguments = .error fault →
      ∀ streams, Command.Fails (Command.ofBuiltin builtin arguments streams) state) ∧
    (builtin.read arguments = .ok none →
      ∀ streams, KeepsSession (Command.ofBuiltin builtin arguments streams)) ∧
    (∀ call, builtin.read arguments = .ok (some call) →
      (∀ (outputs : Outputs) (e : BuiltinError) (last : State),
        call.run outputs state = .error e last → last.session = state.session) ∧
      ∀ (streams : Streams) (e : BuiltinError) (failed : State),
        call.run (Outputs.ofStreams streams) state = .error e failed →
          Command.Fails (Command.ofBuiltin builtin arguments streams) state) ∧
    (∀ (outputs : Outputs) (value : Text), WorldAction.Refuses outputs.stderr →
      Program.isUsableSearchPath state.world.store state.session.environment value = false →
        ∃ e last, (Call.exportVariable (Program.searchVariable ++ '=' :: value)).run outputs state =
            .error e last ∧
          last.session = state.session) ∧
    ∀ (outputs : Outputs) (operand : Text), WorldAction.Refuses outputs.stdout →
      ∃ e last, (Call.history [operand]).run outputs state = .error e last ∧
        last.session = state.session := by
  refine ⟨?_, ?_, ?_, ?_, ?_⟩
  · intro fault hread streams
    exact Command.fails_of_read_eq_error hread streams state
  · intro hread streams
    unfold Command.ofBuiltin
    rw [hread]
    exact (Command.quiet_help builtin streams).keepsSession
  · intro call hread
    refine ⟨?_, ?_⟩
    · intro outputs e last hrun
      exact Call.session_of_run_error hrun
    · intro streams e failed hrun
      exact Command.fails_of_run_eq_error hread hrun
  · intro outputs value hrefuses hunusable
    obtain ⟨e, last, hrun⟩ := Call.exists_run_export_eq_error hrefuses hunusable
    exact ⟨e, last, hrun, Call.session_of_run_error hrun⟩
  · intro outputs operand hrefuses
    obtain ⟨e, last, hrun⟩ := Call.exists_run_history_eq_error hrefuses operand state
    exact ⟨e, last, hrun, Call.session_of_run_error hrun⟩

/-- On a full device the entry is not queued and the search path is not assigned.  A missing operand
and a directory that does not exist are failures, too. -/
theorem Builtin.failure_keeps_session_full_device :
    let full : Bytes → WorldAction IoError Unit := fun _ => throw (.system .noSpaceLeft)
    let outputs : Outputs := ⟨full, full⟩
    let session : Session :=
      { environment := { directory := [Path.slash] }
        history := { capacity := 5, entries := ["cat notes".toList] } }
    let state : State := { session, world := { store := .empty, console := { kind := .captured } } }
    (∃ e last, (Call.history ["1".toList]).run outputs state = .error e last ∧
        last.session = session) ∧
      (∃ e last, (Call.exportVariable "PATH=bin".toList).run outputs state = .error e last ∧
        last.session = session) ∧
      Command.Fails (Command.ofBuiltin .cd [] .ofConsole) state ∧
      Command.Fails (Command.ofBuiltin .cd ["bin".toList] .ofConsole) state := by
  intro full outputs session state
  have hfull : WorldAction.Refuses full := fun _ world => ⟨.system .noSpaceLeft, world, rfl⟩
  obtain ⟨hrefused, -, -, hexport, hhistory⟩ := failure_keeps_session .cd [] state
  obtain ⟨-, -, hcall, -, -⟩ := failure_keeps_session .cd ["bin".toList] state
  refine ⟨hhistory outputs _ hfull, hexport outputs "bin".toList hfull (by decide +kernel), ?_, ?_⟩
  · exact hrefused (.missingOperand "target".toList) rfl .ofConsole
  · obtain ⟨-, hfails⟩ := hcall (.cd "bin".toList) rfl
    have hmissing : cdDestination "bin".toList state =
        .error (.cdUnreachable "bin".toList (.system .noSuchEntry)) := rfl
    exact hfails .ofConsole _ _ (bind_eq_error.2 (.inl (check_eq_error.2 ⟨hmissing, rfl⟩)))

end LineShell
