import LineShell.Proofs.Runs

/-!
# History entries can be replayed

An entry of the history is a line that was executed at some step of the run, without its comment
and the blanks around it.  Reading it again gives what the line gave, since cutting comments and
blanks is idempotent; so the words and the targets of an entry are those of the line, and executing
the entry is never blank and never malformed, whatever the variables are by then.

The step is found by going back through the run to the first one after which the entry was there.
Eviction, resizing and replays only take entries away, so they need no argument of their own.
-/

namespace LineShell

/-- A text that is read as a command line with at least one word, whatever runs it. -/
structure Replayable (entry : Text) (command : CommandLine) : Prop where
  ne_nil : entry ≠ []
  significant : Text.significant entry = entry
  parse : ∃ parsed, Redirection.parse entry = .ok parsed ∧
    command = { text := entry, words := Text.words parsed.residual, targets := parsed.targets }
  one_le_words : 1 ≤ command.words.length
  words_le : command.words.length ≤ maxWords

/-- A command line with a word is the command line of its own significant part. -/
theorem Replayable.of_read {line : Text} {command : CommandLine}
    (hread : CommandLine.read line = .command command) (hwords : command.words ≠ []) :
    Replayable (Text.significant line) command := by
  obtain ⟨hne, hparse⟩ := CommandLine.read_eq_command_iff.1 hread
  obtain ⟨parsed, hparsed, hlength, rfl⟩ := CommandLine.parse_eq_ok_iff.1 hparse
  exact
    { ne_nil := hne
      significant := Text.significant_significant line
      parse := ⟨parsed, hparsed, rfl⟩
      one_le_words := List.length_pos_iff.2 hwords
      words_le := hlength }

namespace Shell

variable {shell : Shell} {line entry : Text} {record : Bool}

/-! ## One step -/

/-- A new entry is the line of the step, which was recorded when its command was known. -/
theorem Settled.mem_entries_executeLine (h : Settled shell)
    (hentry : entry ∈ (shell.executeLine line record).shell.state.session.history.entries) :
    entry ∈ shell.state.session.history.entries ∨
      record = true ∧ ∃ command, CommandLine.read line = .command command ∧
        entry = Text.significant line ∧ command.words ≠ [] := by
  have hfirst :
      entry ∈
        (runLine shell.factories shell.state line record).state.session.history.entries := by
    rcases executeLine_cases shell line record with honce | ⟨replayed, -, -, htwice⟩
    · rw [honce] at hentry
      exact hentry
    · rw [htwice] at hentry
      exact ((h.toReplay line record).lineEffect replayed false).entries_isSuffix.subset hentry
  refine ((h.lineEffect line record).mem_entries hfirst).imp id ?_
  rintro ⟨hrecord, command, hread, hnew, harguments⟩
  refine ⟨hrecord, command, hread, ?_, ?_⟩
  · rw [hnew, CommandLine.text_of_read hread, Text.trim_significant]
  · intro hwords
    -- Without words there would be nothing to expand to a command name.
    apply harguments
    unfold CommandLine.expand Scope.arguments
    rw [hwords]
    rfl

/-- The step puts an entry into the history. -/
structure Step.Records (step : Step) (entry : Text) : Prop where
  absent : entry ∉ step.before.state.session.history.entries
  present : entry ∈ step.after.state.session.history.entries

/-! ## The steps of a run -/

/-- Every entry was put into the history by a step of the run. -/
theorem Leads.exists_records {first last : Shell} {steps : List Step}
    (hsteps : Leads first steps last) (habsent : entry ∉ first.state.session.history.entries)
    (hentry : entry ∈ last.state.session.history.entries) :
    ∃ step ∈ steps, step.Records entry := by
  induction hsteps with
  | nil => exact absurd hentry habsent
  | cons step _ ih =>
    by_cases hafter : entry ∈ step.after.state.session.history.entries
    · exact ⟨step, List.mem_cons_self, habsent, hafter⟩
    · obtain ⟨later, hlater, hrecords⟩ := ih hafter hentry
      exact ⟨later, List.mem_cons_of_mem _ hlater, hrecords⟩

/-- The step that recorded an entry executed the line of the entry, and it was recorded because
there was a command to run. -/
theorem exists_recording_step (environment : Environment) (world : World)
    (requests : List Request)
    (hentry : entry ∈
      ((fresh environment world).answerAll requests).state.session.history.entries) :
    ∃ step ∈ (fresh environment world).steps requests,
      step.Records entry ∧ step.record = true ∧ entry = Text.significant step.text ∧
        ∃ command, CommandLine.read step.text = .command command ∧ command.words ≠ [] := by
  have hsteps := leads_steps (fresh environment world) requests
  obtain ⟨step, hstep, hrecords⟩ := hsteps.exists_records List.not_mem_nil hentry
  have hsettled := (hsteps.settled (settled_fresh environment world)).2 step hstep
  rcases hsettled.mem_entries_executeLine hrecords.present with
    hbefore | ⟨hrecord, command, hread, hnew, hwords⟩
  · exact absurd hbefore hrecords.absent
  · exact ⟨step, hstep, hrecords, hrecord, hnew, command, hread, hwords⟩

/-- The entries of a reachable shell are read as command lines. -/
theorem Reachable.read_of_mem_entries (h : Reachable shell)
    (hentry : entry ∈ shell.state.session.history.entries) :
    ∃ command, CommandLine.read entry = .command command := by
  obtain ⟨environment, world, requests, rfl⟩ := h
  obtain ⟨step, -, -, -, hnew, command, hread, -⟩ :=
    exists_recording_step environment world requests hentry
  refine ⟨command, ?_⟩
  rw [hnew, CommandLine.read_significant, hread]

/-- Every entry of the history can be replayed: it is read as a command line of one word or more,
which is what the line of the step that recorded it was read as, and executing it never ends in a
fault of the line. -/
theorem entries_replayable (environment : Environment) (world : World) (requests : List Request)
    (hentry : entry ∈
      ((fresh environment world).answerAll requests).state.session.history.entries) :
    ∃ command, Replayable entry command ∧ CommandLine.read entry = .command command ∧
      (∃ step ∈ (fresh environment world).steps requests,
        step.record = true ∧ step.Records entry ∧ entry = Text.significant step.text ∧
          CommandLine.read step.text = .command command) ∧
      ∀ (state last : State) (record : Bool) (error : ShellError),
        runCommand Factory.default command record state = .error error last →
          error.isMalformed = false := by
  obtain ⟨step, hstep, hrecords, hrecord, hnew, command, hread, hwords⟩ :=
    exists_recording_step environment world requests hentry
  refine ⟨command, ?_, ?_, ⟨step, hstep, hrecord, hrecords, hnew, hread⟩, ?_⟩
  · rw [hnew]
    exact .of_read hread hwords
  · rw [hnew, CommandLine.read_significant, hread]
  · intro state last record error herror
    exact (runCommand_eq_error herror).2

/-- The line was recorded without its comment, and is read as one redirection and two words. -/
theorem entries_replayable_commented_line :
    let requests : List Request := [.line "  cat notes > out # copy".toList true]
    let entry : Text := "cat notes > out".toList
    entry ∈ (bare.answerAll requests).state.session.history.entries ∧
      ∃ command, Replayable entry command ∧ CommandLine.read entry = .command command ∧
        ∃ step ∈ bare.steps requests,
          step.Records entry ∧ CommandLine.read step.text = .command command := by
  intro requests entry
  have hentry : entry ∈ (bare.answerAll requests).state.session.history.entries := by
    decide +kernel
  obtain ⟨command, hreplayable, hread, ⟨step, hstep, -, hrecords, -, hline⟩, -⟩ :=
    entries_replayable _ _ requests hentry
  exact ⟨hentry, command, hreplayable, hread, step, hstep, hrecords, hline⟩

end Shell
end LineShell
