import LineShell.Proofs.Operands
import LineShell.Proofs.ReplayableEntries

/-!
# What a replay does

The line `history N` is executed by two runs.  The first one shows the entry with that number,
keeps the status of a success and queues the entry (`runLine_historyLine`).  The second one executes
the entry without recording it, by an inner call that drops whatever entry is queued in turn.

That the inner call is a replay makes a difference only if there is something to drop.  An entry
that does not call `history` queues nothing, so it is executed just as if its text had been entered
(`Settled.executeLine_replaying`).
-/

namespace LineShell

/-! ## Calling `history` for an entry -/

namespace Builtin

variable {operand : Text} {n : Nat}

/-- A numeral is no option and does not ask for help. -/
theorem read_history_of_readSize (h : Numeral.readSize operand = .ok n) :
    history.read [operand] = .ok (some (.history [operand])) := by
  refine read_operand (by decide) ?_ ?_
  · intro hhead
    obtain ⟨rest, rfl⟩ := List.head?_eq_some_iff.1 hhead
    cases h
  · rintro rfl
    cases h

theorem runHistory_of_readSize (outputs : Outputs) (h : Numeral.readSize operand = .ok n) :
    runHistory outputs [operand] = replayHistory outputs operand := by
  refine if_neg ?_
  rintro rfl
  cases h

end Builtin

namespace Shell

variable {shell : Shell} {state : State} {command : CommandLine} {operand entry : Text} {n : Nat}

/-- The world after an entry was shown on the console. -/
def showEntry (entry : Text) (world : World) : World :=
  { world with
    console := { world.console with
      output := world.console.output.append (Builtin.outputLine entry) } }

/-- The call `history N` shows the entry with that number and queues it. -/
theorem run_history_of_get? (hoperand : Numeral.readSize operand = .ok n)
    (hentry : state.session.history.get? n = some entry) :
    (Call.history [operand]).run (Outputs.ofStreams Streams.ofConsole) state =
      .ok 0
        { session := { state.session with pendingReplay := some entry }
          world := showEntry entry state.world } := by
  have hfound : Builtin.historyEntry operand state = .ok entry := by
    unfold Builtin.historyEntry
    rw [hoperand]
    dsimp only
    rw [hentry]
  change Builtin.runHistory (Outputs.ofStreams Streams.ofConsole) [operand] state = _
  rw [Builtin.runHistory_of_readSize _ hoperand]
  unfold Builtin.replayHistory
  refine Action.bind_eq_ok.2 ⟨entry, state, Action.check_eq_ok.2 ⟨hfound, rfl⟩, ?_⟩
  refine Action.bind_eq_ok.2 ⟨(), { state with world := showEntry entry state.world }, rfl, ?_⟩
  exact Action.bind_eq_ok.2 ⟨(), _, Action.modifySession_eq_ok.2 rfl, Action.pure_eq_ok.2 ⟨rfl, rfl⟩⟩

/-! ## The line `history N` -/

/-- The line that asks for an entry by its number. -/
def historyLine (n : Nat) : Text := Builtin.history.name ++ ' ' :: Text.ofNat n

theorem read_historyLine (n : Nat) :
    CommandLine.read (historyLine n) =
      .command
        { text := historyLine n
          words := [Builtin.history.name, Text.ofNat n]
          targets := .empty } :=
  (Builtin.isLiteralWord_name .history).read_pair (Text.isLiteralWord_ofNat n)

/-- The state after an entry was shown, with the status of a success. -/
def shown (entry : Text) (state : State) : State :=
  { session := { state.session with lastStatus := 0 }, world := showEntry entry state.world }

/-- The first run of the line shows the entry and takes it out of the queue again. -/
theorem runLine_historyLine (record : Bool) (hn : n ≤ Numeral.maxSize)
    (hentry : state.session.history.get? n = some entry)
    (hidle : state.session.pendingReplay = none) :
    runLine Factory.default state (historyLine n) record =
      { status := 0, state := shown entry state, ran := [historyLine n], replay := some entry } := by
  let command : CommandLine :=
    { text := historyLine n, words := [Builtin.history.name, Text.ofNat n], targets := .empty }
  have hread : CommandLine.read (historyLine n) = .command command := read_historyLine n
  have harguments : (command.expand state.session.scope).arguments =
      [Builtin.history.name, Text.ofNat n] :=
    (Builtin.isLiteralWord_name .history).arguments_pair (Text.isLiteralWord_ofNat n) _
  have hoperand := Numeral.readSize_ofNat hn
  rw [runLine_of_run record hread harguments rfl (Builtin.read_history_of_readSize hoperand)
    (run_history_of_get? hoperand hentry) rfl]
  unfold shown
  rw [← hidle]

/-- Showing an entry leaves the shell settled, and so does the flag of a replay. -/
theorem Settled.toShown (h : Settled shell) (entry : Text) (replaying : Bool) :
    Settled { shell with state := shown entry shell.state, replaying } :=
  ⟨h.factories, h.pendingReplay, h.history⟩

/-- The history is too small for a number that could not be read. -/
theorem Settled.le_maxSize (h : Settled shell) (hsize : n ≤ shell.state.session.history.size) :
    n ≤ Numeral.maxSize :=
  calc
    n ≤ shell.state.session.history.size := hsize
    _ ≤ shell.state.session.history.capacity := h.history.length_le
    _ ≤ History.maxCapacity := h.history.capacity_le
    _ ≤ Numeral.maxSize := by decide

/-- The line shows the entry and then executes it as a replay. -/
theorem Settled.executeLine_historyLine (h : Settled shell) (hreplaying : shell.replaying = false)
    (hsize : n ≤ shell.state.session.history.size)
    (hentry : shell.state.session.history.get? n = some entry) (record : Bool) :
    shell.executeLine (historyLine n) record =
      let replayed : Execution :=
        { shell with state := shown entry shell.state, replaying := true }.executeLine
          entry false
      { status := replayed.status
        shell := { replayed.shell with replaying := false }
        ran := historyLine n :: replayed.ran } := by
  have hfirst : runLine shell.factories shell.state (historyLine n) record =
      { status := 0
        state := shown entry shell.state
        ran := [historyLine n]
        replay := some entry } := by
    rw [h.factories]
    exact runLine_historyLine record (h.le_maxSize hsize) hentry h.pendingReplay
  have hqueued : (runLine shell.factories shell.state (historyLine n) record).replay =
      some entry := by
    rw [hfirst]
  have htwice := executeLine_of_replay_eq_some hreplaying hqueued
  rw [hfirst] at htwice
  exact htwice

/-! ## Executing an entry -/

/-- A line that does not call `history` queues nothing. -/
theorem Settled.replay_eq_none (h : Settled shell) {line : Text} (record : Bool)
    (hread : CommandLine.read line = .command command)
    (hname : (command.expand shell.state.session.scope).arguments.head? ≠
      some Builtin.history.name) :
    (runLine shell.factories shell.state line record).replay = none := by
  refine (h.lineEffect line record).replay_eq_none h.pendingReplay fun called hcalled => ?_
  rw [hread] at hcalled
  cases hcalled
  exact hname

/-- A line that does not call `history` is executed in the same way whether or not this is a
replay. -/
theorem Settled.executeLine_replaying (h : Settled shell) {line : Text} (record : Bool)
    (hread : CommandLine.read line = .command command)
    (hname : (command.expand shell.state.session.scope).arguments.head? ≠
      some Builtin.history.name) :
    ({ shell with replaying := true }.executeLine line record).status =
        (shell.executeLine line record).status ∧
      { ({ shell with replaying := true }.executeLine line record).shell with
          replaying := shell.replaying } = (shell.executeLine line record).shell := by
  have hnone := h.replay_eq_none record hread hname
  rw [executeLine_of_replay_eq_none hnone, executeLine_of_replaying rfl]
  exact ⟨rfl, rfl⟩

/-- Executing a line without recording it adds no entry. -/
theorem Settled.entries_isSuffix_executeLine (h : Settled shell) (line : Text) :
    (shell.executeLine line false).shell.state.session.history.entries <:+
      shell.state.session.history.entries := by
  have hfirst := (h.lineEffect line false).entries_isSuffix
  rcases executeLine_cases shell line false with honce | ⟨queued, -, -, htwice⟩
  · rw [honce]
    exact hfirst
  · rw [htwice]
    exact ((h.toReplay line false).lineEffect queued false).entries_isSuffix.trans hfirst

/-! ## Faithfulness -/

/-- The line `history N` shows entry N on the console and then executes it without recording it.
Unless the entry calls `history` itself, that is what its text would do in place of the line.  No
entry is added. -/
theorem replay_faithful (h : Reachable shell) (hpos : 1 ≤ n)
    (hsize : n ≤ shell.state.session.history.size) (record : Bool) :
    ∃ entry command, shell.state.session.history.get? n = some entry ∧
      CommandLine.read entry = .command command ∧
      let done := shell.executeLine (historyLine n) record
      let before : Shell := { shell with state := shown entry shell.state }
      let replayed := { before with replaying := true }.executeLine entry false
      let plain := before.executeLine entry false
      (done.status = replayed.status ∧ done.shell = { replayed.shell with replaying := false } ∧
        done.ran = historyLine n :: replayed.ran) ∧
      ((command.expand shell.state.session.scope).arguments.head? ≠ some Builtin.history.name →
        done.status = plain.status ∧ done.shell = plain.shell) ∧
      done.shell.state.session.history.entries <:+ shell.state.session.history.entries := by
  have hsettled := h.settled
  obtain ⟨entry, hentry⟩ := History.exists_get? hpos hsize
  obtain ⟨command, hread⟩ := h.read_of_mem_entries (History.mem_entries_of_get? hentry)
  refine ⟨entry, command, hentry, hread, ?_⟩
  intro done before replayed plain
  have hdone : done =
      { status := replayed.status
        shell := { replayed.shell with replaying := false }
        ran := historyLine n :: replayed.ran } :=
    hsettled.executeLine_historyLine h.replaying hsize hentry record
  rw [hdone]
  refine ⟨⟨rfl, rfl, rfl⟩, ?_, ?_⟩
  · intro hname
    have hbefore : Settled before := hsettled.toShown entry shell.replaying
    obtain ⟨hstatus, hshell⟩ := hbefore.executeLine_replaying false hread hname
    refine ⟨hstatus, ?_⟩
    rw [← hshell, show before.replaying = false from h.replaying]
  · exact (hsettled.toShown entry true).entries_isSuffix_executeLine entry

/-- The entry `$H x=1` was recorded as a call of a program and sets a variable when replayed. -/
theorem replay_faithful_variable_changed :
    let shell := bare.answerAll
      [.line "local H=echo".toList true, .line "$H x=1".toList true,
        .line "local H=local".toList true]
    let entry : Text := "$H x=1".toList
    let done := shell.executeLine (historyLine 1) true
    let plain := { shell with state := shown entry shell.state }.executeLine entry false
    Reachable shell ∧ shell.state.session.history.size = 1 ∧
      shell.state.session.history.get? 1 = some entry ∧
      done.shell = plain.shell ∧
      done.shell.state.session.locals.toList =
        [("H".toList, "local".toList), ("x".toList, "1".toList)] := by
  intro shell entry done plain
  have hreachable : Reachable shell := reachable_answerAll_bare _
  have hsize : shell.state.session.history.size = 1 := by decide +kernel
  have hget : shell.state.session.history.get? 1 = some entry := by decide +kernel
  obtain ⟨found, command, hfound, hread, -, hplain, -⟩ :=
    replay_faithful hreachable (Nat.le_refl 1) (by rw [hsize]) true
  rw [hget] at hfound
  cases hfound
  have hcommand : CommandLine.read entry =
      .command { text := entry, words := ["$H".toList, "x=1".toList], targets := .empty } := by
    decide +kernel
  rw [hcommand] at hread
  cases hread
  exact ⟨hreachable, hsize, hget, (hplain (by decide +kernel)).2, by decide +kernel⟩

end Shell
end LineShell
