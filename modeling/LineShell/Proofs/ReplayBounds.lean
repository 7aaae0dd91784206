import LineShell.Proofs.Runs

/-!
# How far a replay can go

The command `history N` only queues an entry; `executeLine` takes it out of the queue and executes
it by a call of its own.  An entry that ran a program when it was recorded can expand to
`history N` by now, so that the inner call queues an entry again.  It is shown here that this ends
the matter: the inner call drops what it takes out of the queue.

The statement is about every call of `executeLine` in a run, the inner ones included (`Called`).
-/

namespace LineShell.Shell

variable {shell : Shell} {line : Text} {record : Bool}

/-- The calls of `executeLine` that a run consists of. -/
inductive Called : Shell → Text → Bool → Prop where
  /-- A request, or a line of one. -/
  | requested {shell : Shell} (reachable : Reachable shell) (line : Text) (record : Bool) :
      Called shell line record
  /-- The call that executes the entry which the outer call has queued. -/
  | nested {shell : Shell} {line entry : Text} {record : Bool} (outer : Called shell line record)
      (replaying : shell.replaying = false)
      (queued : (runLine shell.factories shell.state line record).replay = some entry) :
      Called (shell.toReplay (runLine shell.factories shell.state line record)) entry false

/-- A call never starts with an entry in the queue, whoever makes it. -/
theorem Called.settled (call : Called shell line record) : Settled shell := by
  induction call with
  | requested reachable => exact reachable.settled
  | nested _ _ _ ih => exact ih.toReplay _ _

/-- A line that is run alone is the only one that is run. -/
theorem ran_onceRun_isPrefix (shell : Shell) (line : Text) (record : Bool) :
    (shell.onceRun (runLine shell.factories shell.state line record)).ran <+:
      [Text.significant line] := by
  unfold onceRun
  dsimp only
  rw [ran_runLine]
  split
  · exact List.nil_prefix
  · exact List.prefix_refl _

/-- A settled shell runs the line and nothing else, or the line and one entry of its history. -/
theorem Settled.ran_executeLine (h : Settled shell) (line : Text) (record : Bool) :
    (shell.executeLine line record).ran <+: [Text.significant line] ∨
      shell.replaying = false ∧ ∃ entry ∈ shell.state.session.history.entries,
        (shell.executeLine line record).ran <+:
          [Text.significant line, Text.significant entry] := by
  rcases executeLine_cases shell line record with honce | ⟨entry, hreplaying, hqueued, htwice⟩
  · left
    rw [honce]
    exact ran_onceRun_isPrefix shell line record
  · right
    obtain ⟨hentry, command, hread, -⟩ := (h.lineEffect line record).replay h.pendingReplay hqueued
    refine ⟨hreplaying, entry, hentry, ?_⟩
    rw [htwice]
    dsimp only
    rw [ran_runLine, ran_runLine, if_neg (CommandLine.read_eq_command_iff.1 hread).1]
    refine (List.prefix_append_right_inj [Text.significant line]).2 ?_
    split
    · exact List.nil_prefix
    · exact List.prefix_refl _

/-- Every call of `executeLine` runs the line and at most one entry of the history, none at all if
it executes an entry itself.  It ends with an empty queue and with the flag that it was given,
whichever way it ends. -/
theorem replay_bounded (call : Called shell line record) :
    let done := shell.executeLine line record
    done.ran.length ≤ (if shell.replaying then 1 else 2) ∧
      (done.ran <+: [Text.significant line] ∨
        shell.replaying = false ∧ ∃ entry ∈ shell.state.session.history.entries,
          done.ran <+: [Text.significant line, Text.significant entry]) ∧
      done.shell.state.session.pendingReplay = none ∧
      done.shell.replaying = shell.replaying := by
  intro done
  have hran := call.settled.ran_executeLine line record
  refine ⟨?_, hran, (call.settled.executeLine line record).pendingReplay, ?_⟩
  · rcases hran with hline | ⟨hreplaying, entry, -, hboth⟩
    · have hone : done.ran.length ≤ 1 := hline.length_le
      split
      · exact hone
      · omega
    · rw [hreplaying]
      exact hboth.length_le
  · show (shell.executeLine line record).shell.replaying = shell.replaying
    rw [executeLine_shell]

/-- The entry `$H 1` ran a program when it was recorded and calls `history` when it is replayed. -/
theorem replay_bounded_history_in_replay :
    let shell := bare.answerAll
      [.line "local H=echo".toList true, .line "$H 1".toList true,
        .line "local H=history".toList true]
    let done := shell.executeLine "history 1".toList true
    done.ran = ["history 1".toList, "$H 1".toList] ∧
      done.ran.length ≤ 2 ∧
      done.shell.state.session.pendingReplay = none ∧
      done.shell.replaying = false := by
  intro shell done
  have hreachable : Reachable shell := reachable_answerAll_bare _
  obtain ⟨hlength, -, hqueue, hreplaying⟩ :=
    replay_bounded (.requested hreachable "history 1".toList true)
  rw [hreachable.replaying] at hlength hreplaying
  exact ⟨by decide +kernel, hlength, hqueue, hreplaying⟩

end LineShell.Shell
