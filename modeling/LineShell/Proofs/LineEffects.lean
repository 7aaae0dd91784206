import LineShell.Proofs.CommandEffects
import LineShell.Proofs.HistoryStore
import LineShell.Proofs.Reading

/-!
# What executing a line does

The first half takes `executeLine` apart for any factories: a line is run once, and a second run
follows exactly if the first one queued an entry and no entry is being replayed already.

The second half is about the default factories.  `LineEffect` lists what a single run can do to the
session: nothing if there was no command line to run, and otherwise what the command line does,
followed by the new status and the removal of the queued entry.  That a run never leaves an entry
queued, and that an entry is queued only by `history` and only from the history, is read off this
list (`LineEffect.pendingReplay`, `LineEffect.replay`).
-/

namespace LineShell.Shell

variable {shell : Shell} {factories : List Factory} {state : State} {line : Text} {record : Bool}

/-! ## One run -/

theorem runLine_of_blank (h : CommandLine.read line = .blank) :
    runLine factories state line record = { status := state.session.lastStatus, state } := by
  unfold runLine
  rw [h]

theorem runLine_of_malformed {fault : LineFault} (h : CommandLine.read line = .malformed fault) :
    runLine factories state line record =
      { status := .malformedLine
        state := report (.malformed fault) state
        ran := [Text.significant line] } := by
  unfold runLine
  rw [h]
  rfl

theorem runLine_of_runCommand_eq_ok {status : Status} {command : CommandLine} {after : State}
    (hread : CommandLine.read line = .command command)
    (hrun : runCommand factories command record state = .ok status after) :
    runLine factories state line record = finish status command (closeFiles state after) := by
  unfold runLine
  rw [hread]
  dsimp only
  rw [hrun]

theorem runLine_of_runCommand_eq_error {error : ShellError} {command : CommandLine} {after : State}
    (hread : CommandLine.read line = .command command)
    (hrun : runCommand factories command record state = .error error after)
    (hfault : error.isMalformed = false) :
    runLine factories state line record =
      finish error.status command (report error (closeFiles state after)) := by
  unfold runLine
  rw [hread]
  dsimp only
  rw [hrun]
  dsimp only
  rw [hfault]
  rfl

/-- Closing leaves the files open that were open before. -/
theorem closeFiles_of_openFiles {after : State} {more : List OpenFile}
    (h : after.world.openFiles = state.world.openFiles ++ more) :
    closeFiles state after =
      { after with world := { after.world with openFiles := state.world.openFiles } } := by
  unfold closeFiles World.closeFrom
  rw [h, List.take_left]

/-- With nothing queued, a run keeps its status and does no more. -/
theorem finish_of_pendingReplay_eq_none {command : CommandLine} {status : Status}
    (h : state.session.pendingReplay = none) :
    finish status command state =
      { status, state := keepStatus status state, ran := [command.text] } := by
  obtain ⟨⟨environment, locals, history, lastStatus, unusable, exit, queued⟩, world⟩ := state
  change queued = none at h
  subst h
  rfl

/-- A run is the run of the significant part of the line, unless that is blank. -/
theorem ran_runLine (factories : List Factory) (state : State) (line : Text) (record : Bool) :
    (runLine factories state line record).ran =
      if Text.significant line = [] then [] else [Text.significant line] := by
  cases hread : CommandLine.read line with
  | blank => rw [runLine_of_blank hread, if_pos (CommandLine.read_eq_blank_iff.1 hread)]
  | malformed fault =>
    rw [runLine_of_malformed hread, if_neg (CommandLine.read_eq_malformed_iff.1 hread).1]
  | command command =>
    have htext := CommandLine.text_of_read hread
    rw [if_neg (CommandLine.read_eq_command_iff.1 hread).1]
    unfold runLine
    rw [hread]
    dsimp only
    split
    · exact congrArg (fun text => [text]) htext
    · split
      · exact congrArg (fun text => [text]) htext
      · exact congrArg (fun text => [text]) htext

/-! ## One run or two -/

/-- The execution of a line that consists of one run. -/
def onceRun (shell : Shell) (first : LineResult) : Execution :=
  { status := first.status, shell := { shell with state := first.state }, ran := first.ran }

/-- The shell that a queued entry is executed in. -/
def toReplay (shell : Shell) (first : LineResult) : Shell :=
  { shell with state := first.state, replaying := true }

theorem executeLine_of_replay_eq_none
    (h : (runLine shell.factories shell.state line record).replay = none) :
    shell.executeLine line record =
      shell.onceRun (runLine shell.factories shell.state line record) := by
  rw [executeLine]
  split
  · rfl
  · next entry hentry =>
    rw [h] at hentry
    cases hentry

/-- A blank line does nothing. -/
theorem executeLine_of_read_eq_blank (h : CommandLine.read line = .blank) :
    shell.executeLine line record =
      { status := shell.state.session.lastStatus, shell, ran := [] } := by
  rw [executeLine_of_replay_eq_none (by rw [runLine_of_blank h]), runLine_of_blank h]
  rfl

/-- A malformed line is reported, and that is all. -/
theorem executeLine_of_read_eq_malformed {fault : LineFault}
    (h : CommandLine.read line = .malformed fault) :
    shell.executeLine line record =
      { status := .malformedLine
        shell := { shell with state := report (.malformed fault) shell.state }
        ran := [Text.significant line] } := by
  rw [executeLine_of_replay_eq_none (by rw [runLine_of_malformed h]), runLine_of_malformed h]
  rfl

/-- An entry that is queued during a replay is dropped. -/
theorem executeLine_of_replaying (h : shell.replaying = true) :
    shell.executeLine line record =
      shell.onceRun (runLine shell.factories shell.state line record) := by
  rw [executeLine]
  split
  · rfl
  · exact dif_pos h

/-- An entry that is queued otherwise is executed, with replays shut off. -/
theorem executeLine_of_replay_eq_some {entry : Text} (hreplaying : shell.replaying = false)
    (h : (runLine shell.factories shell.state line record).replay = some entry) :
    shell.executeLine line record =
      let first := runLine shell.factories shell.state line record
      let second := (shell.toReplay first).executeLine entry false
      { status := second.status
        shell := { second.shell with replaying := false }
        ran := first.ran ++ second.ran } := by
  rw [executeLine]
  split
  · next hnone =>
    rw [h] at hnone
    cases hnone
  · next entry' hentry =>
    rw [h] at hentry
    cases hentry
    rw [dif_neg (by simp [hreplaying])]
    rfl

/-- A line is executed by one run, or by a second one for the entry that the first one queued. -/
theorem executeLine_eq (shell : Shell) (line : Text) (record : Bool) :
    let first := runLine shell.factories shell.state line record
    shell.executeLine line record =
      match first.replay with
      | none => shell.onceRun first
      | some entry =>
        if shell.replaying then shell.onceRun first
        else
          let second := runLine shell.factories first.state entry false
          { status := second.status
            shell := { shell with state := second.state }
            ran := first.ran ++ second.ran } := by
  obtain ⟨factories, state, replaying⟩ := shell
  intro first
  cases hreplay : first.replay with
  | none => exact executeLine_of_replay_eq_none hreplay
  | some entry =>
    cases replaying with
    | true => exact executeLine_of_replaying rfl
    | false =>
      rw [executeLine_of_replay_eq_some rfl hreplay]
      dsimp only
      rw [executeLine_of_replaying rfl]
      rfl

/-- The two cases with what is queued in them. -/
theorem executeLine_cases (shell : Shell) (line : Text) (record : Bool) :
    let first := runLine shell.factories shell.state line record
    shell.executeLine line record = shell.onceRun first ∨
      ∃ entry, shell.replaying = false ∧ first.replay = some entry ∧
        let second := runLine shell.factories first.state entry false
        shell.executeLine line record =
          { status := second.status
            shell := { shell with state := second.state }
            ran := first.ran ++ second.ran } := by
  intro first
  rw [executeLine_eq]
  cases hreplay : (runLine shell.factories shell.state line record).replay with
  | none => exact .inl rfl
  | some entry =>
    cases hreplaying : shell.replaying with
    | true => exact .inl rfl
    | false => exact .inr ⟨entry, rfl, rfl, rfl⟩

/-! ## The default factories -/

/-- The status and the session that a command line of the default factories can leave behind. -/
inductive CommandEffect (command : CommandLine) (record : Bool) (before : Session) :
    Status → Session → Prop where
  /-- The command has left the session alone, apart from being recorded. -/
  | quiet (status : Status) :
      CommandEffect command record before status (startingSession command record before)
  /-- The command is a builtin, which is not recorded. -/
  | builtin {builtin : Builtin} {arguments : List Text} {call : Call} {world : World}
      {status : Status} {after : Session}
      (calls : (command.expand before.scope).arguments = builtin.name :: arguments)
      (reads : builtin.read arguments = .ok (some call))
      (effect : Call.Effect ⟨before, world⟩ call status after) :
      CommandEffect command record before status after

/-- What one run of a line can do to the session of a state. -/
inductive LineEffect (before : Session) (line : Text) (record : Bool) : LineResult → Prop where
  /-- There was no command line to run. -/
  | unread {result : LineResult} (nothing : ∀ command, CommandLine.read line ≠ .command command)
      (session : result.state.session = before) (replay : result.replay = none) :
      LineEffect before line record result
  /-- The line was run. -/
  | run {result : LineResult} {command : CommandLine} {after : Session}
      (reads : CommandLine.read line = .command command)
      (effect : CommandEffect command record before result.status after)
      (session : result.state.session =
        { after with lastStatus := result.status, pendingReplay := none })
      (replay : result.replay = after.pendingReplay) :
      LineEffect before line record result

theorem lineEffect_runLine (state : State) (line : Text) (record : Bool) :
    LineEffect state.session line record (runLine Factory.default state line record) := by
  cases hread : CommandLine.read line with
  | blank =>
    rw [runLine_of_blank hread]
    exact .unread (fun command h => by cases hread.symm.trans h) rfl rfl
  | malformed fault =>
    rw [runLine_of_malformed hread]
    exact .unread (fun command h => by cases hread.symm.trans h) rfl rfl
  | command command =>
    unfold runLine
    rw [hread]
    dsimp only
    cases hrun : runCommand Factory.default command record state with
    | ok status after =>
      have heffect : CommandEffect command record state.session status after.session := by
        rcases runCommand_eq_ok hrun with hquiet | ⟨_, _, _, _, hcalls, hreads, heffect⟩
        · rw [hquiet]
          exact .quiet _
        · exact .builtin hcalls hreads heffect
      exact .run hread heffect rfl rfl
    | error error after =>
      obtain ⟨hsession, hfault⟩ := runCommand_eq_error hrun
      have heffect : CommandEffect command record state.session error.status after.session := by
        rw [hsession]
        exact .quiet _
      dsimp only
      rw [if_neg (by simp [hfault])]
      exact .run hread heffect rfl rfl

/-! ## Reading the effects -/

theorem startingSession_false (command : CommandLine) (session : Session) :
    startingSession command false session = session := by
  unfold startingSession
  split <;> rfl

/-- A session starts as it was or with its history recorded in. -/
theorem startingSession_eq (command : CommandLine) (record : Bool) (session : Session) :
    startingSession command record session = session ∨
      ∃ name arguments, record = true ∧
        (command.expand session.scope).arguments = name :: arguments ∧
          startingSession command record session = recordLine command.text name session := by
  unfold startingSession
  split
  · exact .inl rfl
  · next name arguments harguments =>
    cases record with
    | false => exact .inl rfl
    | true => exact .inr ⟨name, arguments, rfl, harguments, rfl⟩

/-- Recording a line changes the history only. -/
theorem exists_startingSession_eq (command : CommandLine) (record : Bool) (session : Session) :
    ∃ history, startingSession command record session = { session with history } := by
  rcases startingSession_eq command record session with hsame | ⟨_, _, -, -, hrecorded⟩
  · exact ⟨session.history, hsame⟩
  · exact ⟨_, hrecorded⟩

theorem environment_startingSession (command : CommandLine) (record : Bool) (session : Session) :
    (startingSession command record session).environment = session.environment := by
  obtain ⟨history, hstarting⟩ := exists_startingSession_eq command record session
  rw [hstarting]

theorem pendingReplay_startingSession (command : CommandLine) (record : Bool) (session : Session) :
    (startingSession command record session).pendingReplay = session.pendingReplay := by
  obtain ⟨history, hstarting⟩ := exists_startingSession_eq command record session
  rw [hstarting]

theorem pathUnusable_startingSession (command : CommandLine) (record : Bool) (session : Session) :
    (startingSession command record session).pathUnusable = session.pathUnusable := by
  obtain ⟨history, hstarting⟩ := exists_startingSession_eq command record session
  rw [hstarting]

/-- A command is run in the world where its targets are open. -/
theorem runCommand_of_openAll {command : CommandLine} {name : Text} {arguments : List Text}
    {streams : Streams} {opened : World}
    (harguments : (command.expand state.session.scope).arguments = name :: arguments)
    (hopen : (command.expand state.session.scope).targets.openAll state.session.environment
      .ofConsole state.world = .ok streams opened) :
    runCommand factories command record state =
      dispatch factories name arguments streams
        ⟨startingSession command record state.session, opened⟩ := by
  rw [runCommand_of_arguments_eq_cons harguments]
  unfold runNamed
  rw [Action.get_bind]
  dsimp only
  rw [environment_startingSession]
  exact Action.bind_of_eq_ok (Action.onWorld_eq_ok.2 ⟨opened, hopen, rfl⟩)

/-- A command is not run if one of its targets cannot be opened. -/
theorem runCommand_of_openAll_error {command : CommandLine} {name : Text} {arguments : List Text}
    {error : ShellError} {after : World}
    (harguments : (command.expand state.session.scope).arguments = name :: arguments)
    (hopen : (command.expand state.session.scope).targets.openAll state.session.environment
      .ofConsole state.world = .error error after) :
    runCommand factories command record state =
      .error error ⟨startingSession command record state.session, after⟩ := by
  rw [runCommand_of_arguments_eq_cons harguments]
  unfold runNamed
  rw [Action.get_bind]
  dsimp only
  rw [environment_startingSession]
  refine Action.bind_eq_error.2 (.inl ?_)
  exact Action.onWorld_eq_error.2 ⟨error, after, hopen, rfl, rfl⟩

namespace CommandEffect

variable {command : CommandLine} {before after : Session} {status : Status}

/-- A command line leaves the queue alone, or calls `history`, which queues an entry. -/
theorem pendingReplay (h : CommandEffect command record before status after) :
    after.pendingReplay = before.pendingReplay ∨
      (command.expand before.scope).arguments.head? = some Builtin.history.name ∧
        ∃ entry ∈ before.history.entries, after.pendingReplay = some entry := by
  cases h with
  | quiet =>
    left
    rcases startingSession_eq command record before with hsame | ⟨name, _, -, -, hrecorded⟩
    · rw [hsame]
    · rw [hrecorded]
      rfl
  | builtin calls reads effect =>
    refine effect.pendingReplay.imp id fun ⟨hhistory, hentry⟩ => ⟨?_, hentry⟩
    rw [calls, ← Call.builtin_of_read reads, hhistory]
    rfl

/-- What is new in the history is the command line itself. -/
theorem mem_entries (h : CommandEffect command record before status after) {entry : Text}
    (hentry : entry ∈ after.history.entries) :
    entry ∈ before.history.entries ∨
      record = true ∧ entry = Text.trim command.text ∧
        (command.expand before.scope).arguments ≠ [] := by
  cases h with
  | quiet =>
    rcases startingSession_eq command record before with
      hsame | ⟨name, arguments, hrecord, harguments, hrecorded⟩
    · rw [hsame] at hentry
      exact .inl hentry
    · rw [hrecorded] at hentry
      refine (History.mem_entries_record hentry).imp id fun hnew => ⟨hrecord, hnew, ?_⟩
      rw [harguments]
      exact List.cons_ne_nil _ _
  | builtin calls reads effect =>
    left
    rcases effect.history with hsame | ⟨size, hresize⟩
    · rwa [hsame] at hentry
    · exact (History.entries_isSuffix_of_resize hresize).subset hentry

/-- A command line that is not recorded adds nothing to the history. -/
theorem entries_isSuffix (h : CommandEffect command false before status after) :
    after.history.entries <:+ before.history.entries := by
  cases h with
  | quiet => exact (startingSession_false command before).symm ▸ List.suffix_refl _
  | builtin calls reads effect =>
    rcases effect.history with hsame | ⟨size, hresize⟩
    · exact hsame ▸ List.suffix_refl _
    · exact History.entries_isSuffix_of_resize hresize

theorem bounded (h : CommandEffect command record before status after)
    (hbounded : before.history.Bounded) : after.history.Bounded := by
  cases h with
  | quiet =>
    rcases startingSession_eq command record before with hsame | ⟨name, _, -, -, hrecorded⟩
    · rwa [hsame]
    · rw [hrecorded]
      exact hbounded.record
  | builtin calls reads effect =>
    rcases effect.history with hsame | ⟨size, hresize⟩
    · rwa [hsame]
    · exact History.bounded_of_resize hresize

end CommandEffect

namespace LineEffect

variable {before : Session} {result : LineResult}

/-- A run leaves no entry queued. -/
theorem pendingReplay (h : LineEffect before line record result)
    (hnone : before.pendingReplay = none) : result.state.session.pendingReplay = none := by
  cases h with
  | unread _ session _ => rw [session, hnone]
  | run _ _ session _ => rw [session]

/-- An entry is taken out of the queue only if the line called `history`, which found it in the
history. -/
theorem replay (h : LineEffect before line record result) (hnone : before.pendingReplay = none)
    {entry : Text} (hreplay : result.replay = some entry) :
    entry ∈ before.history.entries ∧
      ∃ command, CommandLine.read line = .command command ∧
        (command.expand before.scope).arguments.head? = some Builtin.history.name := by
  cases h with
  | unread _ _ queued =>
    rw [queued] at hreplay
    cases hreplay
  | @run command after reads effect _ queued =>
    rw [queued] at hreplay
    rcases effect.pendingReplay with hsame | ⟨hname, found, hfound, hqueued⟩
    · rw [hsame, hnone] at hreplay
      cases hreplay
    · rw [hqueued] at hreplay
      cases hreplay
      exact ⟨hfound, command, reads, hname⟩

/-- A line that does not call `history` queues nothing. -/
theorem replay_eq_none (h : LineEffect before line record result)
    (hnone : before.pendingReplay = none)
    (hname : ∀ command, CommandLine.read line = .command command →
      (command.expand before.scope).arguments.head? ≠ some Builtin.history.name) :
    result.replay = none := by
  refine Option.eq_none_iff_forall_ne_some.2 fun entry hentry => ?_
  obtain ⟨-, command, hread, hhistory⟩ := h.replay hnone hentry
  exact hname command hread hhistory

theorem mem_entries (h : LineEffect before line record result) {entry : Text}
    (hentry : entry ∈ result.state.session.history.entries) :
    entry ∈ before.history.entries ∨
      record = true ∧ ∃ command, CommandLine.read line = .command command ∧
        entry = Text.trim command.text ∧ (command.expand before.scope).arguments ≠ [] := by
  cases h with
  | unread _ session _ =>
    rw [session] at hentry
    exact .inl hentry
  | run reads effect session _ =>
    rw [session] at hentry
    exact (effect.mem_entries hentry).imp id fun ⟨hrecord, hnew⟩ => ⟨hrecord, _, reads, hnew⟩

theorem entries_isSuffix (h : LineEffect before line false result) :
    result.state.session.history.entries <:+ before.history.entries := by
  cases h with
  | unread _ session _ => exact session ▸ List.suffix_refl _
  | run _ effect session _ =>
    rw [session]
    exact effect.entries_isSuffix

theorem bounded (h : LineEffect before line record result) (hbounded : before.history.Bounded) :
    result.state.session.history.Bounded := by
  cases h with
  | unread _ session _ => rwa [session]
  | run _ effect session _ =>
    rw [session]
    exact effect.bounded hbounded

end LineEffect

end LineShell.Shell
