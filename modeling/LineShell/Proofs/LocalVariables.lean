import LineShell.Proofs.CommandOutputs
import LineShell.Proofs.LineEffects
import LineShell.Proofs.LineParts
import LineShell.Proofs.Runs

/-!
# What local variables can reach

Local variables are there for substitution and for `vars`, and nothing else looks at them.  So two
shells that differ in their local variables do the same for a line, if the names that the line refers
to have the same values in both.

`Action.IgnoresLocals` is the relation of two runs that carries this: run from states that differ in
local variables only, an action ends alike, and the states differ in local variables only again.
There is a rule for each basic action and for each way to combine actions.  The builtins that change
local variables ignore them too in this sense; `vars` is the one that does not.
-/

namespace LineShell

open LineShell.Action

def State.withLocals (state : State) (locals : Variables) : State :=
  { state with session := { state.session with locals } }

/-- The states differ in their local variables at most. -/
def State.SameButLocals (a b : State) : Prop := ∃ locals, b = a.withLocals locals

/-! ## Two runs of an action -/

namespace Action

variable {ε α β : Type}

/-- Both runs ended alike, in states that differ in their local variables at most. -/
inductive EndAlike : EStateM.Result ε State α → EStateM.Result ε State α → Prop
  | ok (result : α) {a b : State} (same : a.SameButLocals b) :
      EndAlike (.ok result a) (.ok result b)
  | error (e : ε) {a b : State} (same : a.SameButLocals b) :
      EndAlike (.error e a) (.error e b)

/-- Local variables have no part in the action, except that it may change them. -/
def IgnoresLocals (x : Action ε α) : Prop :=
  ∀ a b : State, a.SameButLocals b → EndAlike (x a) (x b)

namespace IgnoresLocals

theorem pure (a : α) : IgnoresLocals (Pure.pure a : Action ε α) := fun _ _ h => .ok a h

theorem onWorld {δ : Type} (failure : δ → ε) (action : WorldAction δ α) :
    IgnoresLocals (State.onWorld failure action) := by
  rintro a _ ⟨locals, rfl⟩
  unfold State.onWorld State.withLocals
  dsimp only
  cases action a.world with
  | ok result world => exact .ok result ⟨locals, rfl⟩
  | error cause world => exact .error _ ⟨locals, rfl⟩

theorem check {test : State → Except BuiltinError α}
    (h : ∀ state locals, test (State.withLocals state locals) = test state) :
    IgnoresLocals (Builtin.check test) := by
  rintro a _ ⟨locals, rfl⟩
  unfold Builtin.check
  rw [h]
  cases test a with
  | ok result => exact .ok result ⟨locals, rfl⟩
  | error e => exact .error e ⟨locals, rfl⟩

theorem modifySession {f : Session → Session}
    (h : ∀ (session : Session) (locals : Variables), ∃ after,
      f { session with locals } = { f session with locals := after }) :
    IgnoresLocals (LineShell.modifySession f : Action ε Unit) := by
  rintro a _ ⟨locals, rfl⟩
  obtain ⟨after, hafter⟩ := h a.session locals
  refine .ok () ⟨after, ?_⟩
  unfold State.withLocals
  dsimp only
  rw [hafter]

theorem bind {x : Action ε α} {f : α → Action ε β} (hx : IgnoresLocals x)
    (hf : ∀ a, IgnoresLocals (f a)) : IgnoresLocals (x >>= f) := by
  intro a b h
  have hfirst := hx a b h
  change EndAlike (EStateM.bind x f a) (EStateM.bind x f b)
  unfold EStateM.bind
  generalize x a = left at hfirst
  generalize x b = right at hfirst
  cases hfirst with
  | ok result same => exact hf result _ _ same
  | error e same => exact .error e same

/-- Reading the state, to use nothing of it that local variables show in. -/
theorem get_bind {f : State → Action ε β} (hf : ∀ state, IgnoresLocals (f state))
    (h : ∀ state locals, f (State.withLocals state locals) = f state) :
    IgnoresLocals (MonadState.get >>= f) := by
  rintro a _ ⟨locals, rfl⟩
  rw [Action.get_bind, Action.get_bind, h]
  exact hf a _ _ ⟨locals, rfl⟩

theorem forM {ι : Type} {step : ι → Action ε PUnit} (h : ∀ i, IgnoresLocals (step i))
    (list : List ι) : IgnoresLocals (list.forM step) := by
  induction list with
  | nil => exact pure _
  | cons i list ih => exact bind (h i) fun _ => ih

end IgnoresLocals

end Action

/-! ## Builtins -/

namespace Builtin

variable (outputs : Outputs)

theorem ignoresLocals_emit (output : Bytes → WorldAction IoError Unit) (data : Bytes) :
    IgnoresLocals (emit output data) := .onWorld _ _

theorem ignoresLocals_change {change : Session → Session}
    (h : ∀ (session : Session) (locals : Variables), ∃ after,
      change { session with locals } = { change session with locals := after }) (status : Status) :
    IgnoresLocals (do modifySession change; return status : BuiltinAction Status) :=
  .bind (.modifySession h) fun _ => .pure status

theorem ignoresLocals_runExport (assignment : Text) :
    IgnoresLocals (runExport outputs assignment) := by
  refine .bind (.check fun _ _ => rfl) fun ⟨name, value⟩ => ?_
  refine .get_bind (fun state => ?_) fun _ _ => rfl
  dsimp only
  split
  · exact .bind (ignoresLocals_emit _ _) fun _ =>
      ignoresLocals_change (fun _ locals => ⟨locals, rfl⟩) _
  · exact ignoresLocals_change (fun _ locals => ⟨locals, rfl⟩) _

theorem ignoresLocals_runHistory (operands : List Text) :
    IgnoresLocals (runHistory outputs operands) := by
  unfold runHistory
  split
  · exact .get_bind (fun _ => .bind (.forM (fun _ => ignoresLocals_emit _ _) _) fun _ => .pure _)
      fun _ _ => rfl
  · split
    · exact .check fun _ _ => rfl
    · exact .bind (.check fun _ _ => rfl) fun _ => .bind (ignoresLocals_emit _ _) fun _ =>
        ignoresLocals_change (fun _ locals => ⟨locals, rfl⟩) _
  · split
    · split
      · exact .bind (.check fun _ _ => rfl) fun _ =>
          ignoresLocals_change (fun _ locals => ⟨locals, rfl⟩) _
      · exact .check fun _ _ => rfl
    · exact .check fun _ _ => rfl

end Builtin

open Builtin in
/-- No builtin but `vars` lets local variables show. -/
theorem Call.ignoresLocals_run {call : Call} (h : call.builtin ≠ .vars) (outputs : Outputs) :
    IgnoresLocals (call.run outputs) := by
  cases call with
  | vars => exact absurd rfl h
  | cd target =>
    exact .bind (.check fun _ _ => rfl) fun _ =>
      ignoresLocals_change (fun _ locals => ⟨locals, rfl⟩) _
  | pwd =>
    exact .get_bind (fun _ => .bind (ignoresLocals_emit _ _) fun _ => .pure _) fun _ _ => rfl
  | exportVariable assignment => exact ignoresLocals_runExport outputs assignment
  | localVariable assignment =>
    -- The variable is set in both, whatever else is there.
    exact .bind (.check fun _ _ => rfl) fun ⟨name, value⟩ =>
      ignoresLocals_change (fun _ locals => ⟨locals.set name value, rfl⟩) _
  | history operands => exact ignoresLocals_runHistory outputs operands
  | ls =>
    exact .bind (.check fun _ _ => rfl) fun _ =>
      .bind (.forM (fun _ => ignoresLocals_emit _ _) _) fun _ => .pure _
  | exit code =>
    exact .bind (.check fun _ _ => rfl) fun _ =>
      ignoresLocals_change (fun _ locals => ⟨locals, rfl⟩) _

/-! ## Commands -/

namespace Command

theorem ignoresLocals_emit (sink : Sink) (data : Bytes) (status : Status) :
    IgnoresLocals (do emit sink data; return status : Action ShellError Status) :=
  .bind (.onWorld _ _) fun _ => .pure status

theorem ignoresLocals_ofCall {call : Call} (h : call.builtin ≠ .vars) (streams : Streams) :
    IgnoresLocals (ofCall call streams) := by
  intro a b hab
  have hrun := Call.ignoresLocals_run h (Outputs.ofStreams streams) a b hab
  unfold ofCall
  generalize call.run (Outputs.ofStreams streams) a = left at hrun
  generalize call.run (Outputs.ofStreams streams) b = right at hrun
  cases hrun with
  | ok status same => exact .ok status same
  | error failure same => exact ignoresLocals_emit _ _ _ _ _ same

theorem ignoresLocals_ofBuiltin {builtin : Builtin} (h : builtin ≠ .vars) (arguments : List Text)
    (streams : Streams) : IgnoresLocals (ofBuiltin builtin arguments streams) := by
  unfold ofBuiltin
  rcases hread : builtin.read arguments with fault | (_ | call)
  · exact ignoresLocals_emit _ _ _
  · exact ignoresLocals_emit _ _ _
  · exact ignoresLocals_ofCall (by rwa [Call.builtin_of_read hread]) streams

theorem ignoresLocals_ofProgram (path : Path) (name : Text) (arguments : List Text)
    (streams : Streams) : IgnoresLocals (ofProgram path name arguments streams) :=
  .get_bind (fun _ => .onWorld _ _) fun _ _ => rfl

end Command

namespace Shell

open Command

variable {state : State} {locals : Variables} {name : Text} {arguments : List Text}

theorem ignoresLocals_dispatch (hname : name ≠ Builtin.vars.name) (arguments : List Text)
    (streams : Streams) : IgnoresLocals (dispatch Factory.default name arguments streams) := by
  intro a b h
  have hprograms : Factory.ofPrograms b name arguments = Factory.ofPrograms a name arguments := by
    obtain ⟨locals, rfl⟩ := h
    rfl
  rw [dispatch_default, dispatch_default, hprograms]
  cases hbuiltin : Builtin.ofName? name with
  | some builtin =>
    refine ignoresLocals_ofBuiltin (fun hvars => hname ?_) arguments streams a b h
    rw [← hvars, Builtin.ofName?_eq_some_iff.1 hbuiltin]
  | none =>
    cases hcommand : Factory.ofPrograms a name arguments with
    | some command =>
      obtain ⟨path, -, rfl⟩ := Option.map_eq_some_iff.1 hcommand
      exact ignoresLocals_ofProgram path name arguments streams a b h
    | none => exact ignoresLocals_emit _ _ _ a b h

theorem ignoresLocals_runNamed (hname : name ≠ Builtin.vars.name) (arguments : List Text)
    (targets : Redirection.Targets) :
    IgnoresLocals (runNamed Factory.default targets name arguments) :=
  .get_bind (fun _ => .bind (.onWorld _ _) fun _ => ignoresLocals_dispatch hname _ _) fun _ _ => rfl

variable {command : CommandLine} {record : Bool}

/-- A command line that expands alike ends alike. -/
theorem endAlike_runCommand
    (hexpand : command.expand (state.withLocals locals).session.scope =
      command.expand state.session.scope)
    (hname : (command.expand state.session.scope).arguments.head? ≠ some Builtin.vars.name) :
    EndAlike (runCommand Factory.default command record state)
      (runCommand Factory.default command record (state.withLocals locals)) := by
  cases harguments : (command.expand state.session.scope).arguments with
  | nil =>
    have hother := harguments
    rw [← hexpand] at hother
    rw [runCommand_of_arguments_eq_nil harguments, runCommand_of_arguments_eq_nil hother]
    exact .ok 0 ⟨locals, rfl⟩
  | cons name arguments =>
    have hother := harguments
    rw [← hexpand] at hother
    have hstarting : startingSession command record (state.withLocals locals).session =
        { startingSession command record state.session with locals } := by
      unfold startingSession
      rw [harguments, hother]
      cases record <;> rfl
    have hnotVars : name ≠ Builtin.vars.name := by
      rintro rfl
      exact hname (by rw [harguments]; rfl)
    rw [runCommand_of_arguments_eq_cons harguments, runCommand_of_arguments_eq_cons hother, hexpand,
      hstarting]
    exact ignoresLocals_runNamed hnotVars arguments _ _ _ ⟨locals, rfl⟩

/-! ## Lines -/

def LineResult.withLocals (result : LineResult) (locals : Variables) : LineResult :=
  { result with state := result.state.withLocals locals }

/-- One run of a line that expands alike. -/
theorem exists_runLine_withLocals {line : Text}
    (hnames : ∀ name, line.Refers name →
      (state.withLocals locals).session.scope.lookup name = state.session.scope.lookup name)
    (hcommand : ∀ command, CommandLine.read line = .command command →
      (command.expand state.session.scope).arguments.head? ≠ some Builtin.vars.name) :
    ∃ after, runLine Factory.default (state.withLocals locals) line record =
      (runLine Factory.default state line record).withLocals after := by
  cases hread : CommandLine.read line with
  | blank =>
    rw [runLine_of_blank hread, runLine_of_blank hread]
    exact ⟨locals, rfl⟩
  | malformed fault =>
    rw [runLine_of_malformed hread, runLine_of_malformed hread]
    exact ⟨locals, rfl⟩
  | command command =>
    have hexpand := CommandLine.expand_congr hread hnames
    have hrun : EndAlike (runCommand Factory.default command record state)
        (runCommand Factory.default command record (state.withLocals locals)) :=
      endAlike_runCommand hexpand (hcommand command hread)
    unfold runLine
    rw [hread]
    dsimp only
    generalize runCommand Factory.default command record state = left at hrun
    generalize runCommand Factory.default command record (state.withLocals locals) = right at hrun
    cases hrun with
    | ok status same =>
      obtain ⟨after, rfl⟩ := same
      exact ⟨after, rfl⟩
    | error error same =>
      obtain ⟨after, rfl⟩ := same
      refine ⟨after, ?_⟩
      dsimp only
      split <;> rfl

/-- The shell with other local variables. -/
def withLocals (shell : Shell) (locals : Variables) : Shell :=
  { shell with state := shell.state.withLocals locals }

/-- What a found program is started with comes from the exported variables and the directory of the
session. -/
theorem ofProgram_of_prepare {path : Path} {streams : Streams} {process : Program.Process}
    (h : Program.prepare state.world state.session.environment path (name :: arguments)
      (streams.forProgram state.world.console.kind) = .ok process) :
    process.environment = state.session.environment.exported.toList ∧
      ofProgram path name arguments streams state =
        .ok (Program.run process state.world).1.status
          { state with world := (Program.run process state.world).2 } := by
  constructor
  · obtain ⟨directory, launched, -, -, rfl⟩ := Program.prepare_eq_ok h
    rfl
  · unfold ofProgram
    rw [get_bind]
    refine onWorld_eq_ok.2 ⟨_, ?_, rfl⟩
    unfold Program.start
    rw [h]

/-- Local variables do not leak.  Other local variables make no difference to what a line does, with
the default factories and no entry queued, as long as the names that the line refers to keep their
values and the line calls neither `vars` nor `history`: the status, the lines that were run, the file
store, the console and all of the session but its local variables are the same.  A program is started
with exactly the exported variables.  Between two lines nothing is ever queued
(`Reachable.settled`). -/
theorem executeLine_withLocals (shell : Shell) (locals : Variables) (line : Text) (record : Bool)
    (hfactories : shell.factories = Factory.default)
    (hqueue : shell.state.session.pendingReplay = none)
    (hnames : ∀ name, line.Refers name →
      (shell.withLocals locals).state.session.scope.lookup name =
        shell.state.session.scope.lookup name)
    (hcommand : ∀ command, CommandLine.read line = .command command →
      ∀ name, (command.expand shell.state.session.scope).arguments.head? = some name →
        name ≠ Builtin.vars.name ∧ name ≠ Builtin.history.name) :
    (∃ after, (shell.withLocals locals).executeLine line record =
      { shell.executeLine line record with
        shell := (shell.executeLine line record).shell.withLocals after }) ∧
    ∀ (state : State) (path : Path) (name : Text) (arguments : List Text) (streams : Streams)
      (process : Program.Process),
      Program.prepare state.world state.session.environment path (name :: arguments)
          (streams.forProgram state.world.console.kind) = .ok process →
        process.environment = state.session.environment.exported.toList ∧
          ofProgram path name arguments streams state =
            .ok (Program.run process state.world).1.status
              { state with world := (Program.run process state.world).2 } := by
  refine ⟨?_, fun state path name arguments streams process => ofProgram_of_prepare⟩
  have hnotVars : ∀ command, CommandLine.read line = .command command →
      (command.expand shell.state.session.scope).arguments.head? ≠ some Builtin.vars.name :=
    fun command hread hvars => (hcommand command hread _ hvars).1 rfl
  obtain ⟨after, hrun⟩ : ∃ after,
      runLine shell.factories (shell.state.withLocals locals) line record =
        (runLine shell.factories shell.state line record).withLocals after := by
    rw [hfactories]
    exact exists_runLine_withLocals hnames hnotVars
  have hnone : (runLine shell.factories shell.state line record).replay = none := by
    rw [hfactories]
    exact (lineEffect_runLine shell.state line record).replay_eq_none hqueue
      fun command hread hhistory => (hcommand command hread _ hhistory).2 rfl
  have hother : (runLine (shell.withLocals locals).factories (shell.withLocals locals).state line
      record).replay = none := (congrArg LineResult.replay hrun).trans hnone
  refine ⟨after, ?_⟩
  rw [executeLine_of_replay_eq_none hnone, executeLine_of_replay_eq_none hother]
  exact congrArg (onceRun (shell.withLocals locals)) hrun

/-- The value of `$A` is the same with both, and that of `$B` makes no difference.  A program that is
started behind the line has what was exported, the new variable included, and no local variable. -/
theorem executeLine_withLocals_export :
    let store := (FileStore.empty.put [Path.ofText "bin".toList] .directory).put
      [Path.ofText "env".toList, Path.ofText "bin".toList] (.program .env)
    let exported : Variables := OrderedMap.set {} "PATH".toList "/bin".toList
    let shell := (fresh { exported, directory := [Path.slash] }
      { store, console := { kind := .captured } }).withLocals
        (OrderedMap.set (OrderedMap.set {} ['A'] ['a']) ['B'] ['b'])
    let locals : Variables := OrderedMap.set {} ['A'] ['a']
    let line : Text := "export X=$A".toList
    let state := (shell.executeLine line true).shell.state
    let path := Path.ofText "/bin/env".toList
    (∀ name, line.Refers name → name = ['A']) ∧
      (∃ after, (shell.withLocals locals).executeLine line true =
        { shell.executeLine line true with
          shell := (shell.executeLine line true).shell.withLocals after }) ∧
      ∃ process,
        Program.prepare state.world state.session.environment path ["env".toList]
          (Streams.ofConsole.forProgram state.world.console.kind) = .ok process ∧
        process.environment = [("PATH".toList, "/bin".toList), (['X'], ['a'])] ∧
        ofProgram path "env".toList [] .ofConsole state =
          .ok 0 { state with world := (Program.run process state.world).2 } := by
  intro store exported shell locals line state path
  have hpieces : pieces line = ("export X=".toList.map .literal) ++ [.reference ['A']] := by
    decide +kernel
  have hrefers : ∀ name, line.Refers name → name = ['A'] := by
    intro name hname
    rw [← mem_pieces_iff, hpieces] at hname
    simpa using hname
  have hread : CommandLine.read line =
      .command ⟨line, ["export".toList, "X=$A".toList], .empty⟩ := by
    decide +kernel
  obtain ⟨hsame, hstarted⟩ := executeLine_withLocals shell locals line true rfl rfl
    (by
      intro name hname
      rw [hrefers name hname]
      decide)
    (by
      intro command hcommand name hname
      cases hread.symm.trans hcommand
      have hhead : (CommandLine.expand ⟨line, ["export".toList, "X=$A".toList], .empty⟩
          shell.state.session.scope).arguments.head? = some Builtin.exportVariable.name := by
        decide +kernel
      rw [hhead] at hname
      cases hname
      exact ⟨by decide, by decide⟩)
  have hexported : state.session.environment.exported.toList =
      [("PATH".toList, "/bin".toList), (['X'], ['a'])] := by
    decide +kernel
  let process : Program.Process :=
    { tool := .env
      arguments := [Utf8.encode "env".toList]
      environment := state.session.environment.exported.toList
      directory := []
      streams := Streams.ofConsole.forProgram .captured }
  have hprepare : Program.prepare state.world state.session.environment path ["env".toList]
      (Streams.ofConsole.forProgram state.world.console.kind) = .ok process := by
    decide +kernel
  obtain ⟨henvironment, hran⟩ := hstarted state path "env".toList [] .ofConsole process hprepare
  have hstatus : (Program.run process state.world).1.status = 0 := by decide +kernel
  rw [hstatus] at hran
  exact ⟨hrefers, hsame, process, hprepare, henvironment.trans hexported, hran⟩

end Shell

end LineShell
