import LineShell.Proofs.ReplayFaithful

/-!
# Which lines are recorded

A line is recorded as soon as the name of its command is known, so whatever becomes of the command
afterwards has no say in it: the history after the line is a function of the history before it, the
significant part of the line and the name.  The text that is recorded is the one that was entered,
while the name is the one that its first word expands to.

Lines that call a builtin are the exception.  Whether a name calls one is decided twice, by the
history when it is asked to record the line and by the factories when they are asked for a command.
Both decide alike for every name (`isHandled_iff`), so no line of a builtin is recorded and no line
of a program is lost.  Neither does a builtin add an entry, nor the entry that `history` replays.
-/

namespace LineShell

/-- One of the factories of the builtins makes a command of the name and the arguments. -/
def Factory.IsHandled (state : State) (name : Text) (arguments : List Text) : Prop :=
  ∃ factory ∈ Builtin.all.map Factory.ofBuiltin, (factory state name arguments).isSome = true

/-- The factories and the history agree on the names of builtins. -/
theorem Factory.isHandled_iff {state : State} {name : Text} {arguments : List Text} :
    IsHandled state name arguments ↔ Builtin.isName name = true := by
  rw [Builtin.isName_iff]
  constructor
  · rintro ⟨factory, hfactory, hsome⟩
    obtain ⟨builtin, -, rfl⟩ := List.mem_map.1 hfactory
    refine ⟨builtin, ?_⟩
    unfold ofBuiltin at hsome
    split at hsome
    · next hname => exact hname.symm
    · cases hsome
  · rintro ⟨builtin, rfl⟩
    exact ⟨_, List.mem_map_of_mem (Builtin.mem_all builtin), by simp [ofBuiltin]⟩

namespace Shell

variable {shell : Shell} {line : Text} {command : CommandLine} {name : Text}
  {arguments : List Text} {before : Session} {result : LineResult}

/-! ## One run -/

/-- A line whose command is no builtin is recorded, however its run ends. -/
theorem LineEffect.history_of_isName_eq_false (h : LineEffect before line true result)
    (hread : CommandLine.read line = .command command)
    (harguments : (command.expand before.scope).arguments = name :: arguments)
    (hname : Builtin.isName name = false) :
    result.state.session.history = (before.history.record command.text name).2 := by
  cases h with
  | unread nothing _ _ => exact absurd hread (nothing command)
  | run reads effect session _ =>
    rw [hread] at reads
    cases reads
    rw [session]
    cases effect with
    | quiet =>
      unfold startingSession
      rw [harguments]
      rfl
    | @builtin builtin _ _ _ _ _ calls _ _ =>
      -- The name would be that of a builtin.
      rw [harguments] at calls
      cases calls
      rw [Builtin.isName_iff.2 ⟨builtin, rfl⟩] at hname
      cases hname

/-- A line that calls a builtin adds no entry. -/
theorem LineEffect.entries_isSuffix_of_isName {record : Bool}
    (h : LineEffect before line record result)
    (hread : CommandLine.read line = .command command)
    (harguments : (command.expand before.scope).arguments = name :: arguments)
    (hname : Builtin.isName name = true) :
    result.state.session.history.entries <:+ before.history.entries := by
  obtain ⟨called, rfl⟩ := Builtin.isName_iff.1 hname
  cases h with
  | unread nothing _ _ => exact absurd hread (nothing command)
  | run reads effect session _ =>
    rw [hread] at reads
    cases reads
    rw [session]
    cases effect with
    | quiet =>
      have hentries :
          (startingSession command record before).history.entries = before.history.entries := by
        rw [startingSession_of_builtin harguments]
      exact ⟨[], hentries⟩
    | builtin _ _ effect =>
      rcases effect.history with hsame | ⟨size, hresize⟩
      · exact hsame ▸ List.suffix_refl before.history.entries
      · exact History.entries_isSuffix_of_resize hresize

/-! ## Whole lines -/

/-- A line whose command is no builtin queues no entry, so its run is all there is. -/
theorem Settled.history_executeLine_of_isName_eq_false (h : Settled shell)
    (hread : CommandLine.read line = .command command)
    (harguments : (command.expand shell.state.session.scope).arguments = name :: arguments)
    (hname : Builtin.isName name = false) :
    (shell.executeLine line true).shell.state.session.history =
      (shell.state.session.history.record (Text.significant line) name).2 := by
  have hhistory : (command.expand shell.state.session.scope).arguments.head? ≠
      some Builtin.history.name := by
    rw [harguments, List.head?_cons]
    rintro ⟨⟩
    exact absurd hname (by decide)
  rw [executeLine_of_replay_eq_none (h.replay_eq_none true hread hhistory),
    ← CommandLine.text_of_read hread]
  exact (h.lineEffect line true).history_of_isName_eq_false hread harguments hname

/-- A line that calls a builtin adds no entry, and neither does the entry that it may replay. -/
theorem Settled.entries_isSuffix_executeLine_of_isName (h : Settled shell) (record : Bool)
    (hread : CommandLine.read line = .command command)
    (harguments : (command.expand shell.state.session.scope).arguments = name :: arguments)
    (hname : Builtin.isName name = true) :
    (shell.executeLine line record).shell.state.session.history.entries <:+
      shell.state.session.history.entries := by
  have hfirst := (h.lineEffect line record).entries_isSuffix_of_isName hread harguments hname
  rcases executeLine_cases shell line record with honce | ⟨entry, -, -, htwice⟩
  · rw [honce]
    exact hfirst
  · rw [htwice]
    exact ((h.toReplay line record).lineEffect entry false).entries_isSuffix.trans hfirst

/-- Exactly the lines that call no builtin are recorded.  The factories of the builtins decline a
name exactly if the history takes it for the name of a program.  Then the history is the one before
with the significant part of the line recorded, whatever becomes of the command.  Otherwise nothing
is added to it, not even by an entry that is replayed. -/
theorem external_lines_recorded (h : Reachable shell)
    (hread : CommandLine.read line = .command command)
    (harguments : (command.expand shell.state.session.scope).arguments = name :: arguments) :
    let before := shell.state.session.history
    let after := (shell.executeLine line true).shell.state.session.history
    (∀ state, ¬ Factory.IsHandled state name arguments ↔ Builtin.isName name = false) ∧
      (¬ Factory.IsHandled shell.state name arguments →
        after = (before.record (Text.significant line) name).2) ∧
      (Factory.IsHandled shell.state name arguments → after.entries <:+ before.entries) := by
  intro before after
  refine ⟨?_, ?_, ?_⟩
  · intro state
    rw [Factory.isHandled_iff, Bool.not_eq_true]
  · intro hprogram
    rw [Factory.isHandled_iff, Bool.not_eq_true] at hprogram
    exact h.settled.history_executeLine_of_isName_eq_false hread harguments hprogram
  · intro hbuiltin
    rw [Factory.isHandled_iff] at hbuiltin
    exact h.settled.entries_isSuffix_executeLine_of_isName true hread harguments hbuiltin

/-- The line names a program that does not exist and a file that cannot be opened.  It is recorded as
it was entered, without its comment, and replaying it adds nothing. -/
theorem external_lines_recorded_unopened_redirection :
    let shell := bare.answer (.line "local P=prog".toList true)
    let line : Text := "  $P x > no/file # copy".toList
    let recorded : Text := "$P x > no/file".toList
    let failed := (shell.executeLine line true).shell
    let replayed := (failed.executeLine "history 1".toList true).shell
    failed.state.session.history.entries = [recorded] ∧
      replayed.state.session.history.entries <:+ [recorded] := by
  intro shell line recorded failed replayed
  have hshell : Reachable shell := reachable_answerAll_bare [.line "local P=prog".toList true]
  have hfailed : Reachable failed :=
    reachable_answerAll_bare [.line "local P=prog".toList true, .line line true]
  have hentries : failed.state.session.history.entries = [recorded] := by
    let command : CommandLine :=
      { text := recorded
        words := ["$P".toList, "x".toList]
        targets := { stdout := some ⟨"no/file".toList, .truncate⟩ } }
    have hread : CommandLine.read line = .command command := by decide +kernel
    have harguments : (command.expand shell.state.session.scope).arguments =
        "prog".toList :: ["x".toList] := by
      decide +kernel
    obtain ⟨hagree, hrecorded, -⟩ := external_lines_recorded hshell hread harguments
    have hhistory := hrecorded ((hagree shell.state).2 (by decide))
    rw [hhistory]
    decide +kernel
  refine ⟨hentries, ?_⟩
  let command : CommandLine :=
    { text := "history 1".toList
      words := ["history".toList, "1".toList]
      targets := .empty }
  have hread : CommandLine.read "history 1".toList = .command command := by decide +kernel
  have harguments : (command.expand failed.state.session.scope).arguments =
      "history".toList :: ["1".toList] := by
    decide +kernel
  obtain ⟨-, -, hadded⟩ := external_lines_recorded hfailed hread harguments
  rw [← hentries]
  exact hadded (Factory.isHandled_iff.2 (by decide))

end Shell
end LineShell
