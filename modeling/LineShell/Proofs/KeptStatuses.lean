import LineShell.Proofs.CommandStatuses
import LineShell.Proofs.ReplayableEntries
import LineShell.Proofs.ScriptRuns

/-!
# The status that is kept

A line that runs a command keeps the status that it returns; a blank or malformed line keeps the status
that was there.  With a replay it is the status of the entry that is returned and kept, because an
entry is always read as a command line.  `Ready` has what is needed for that, and every line preserves
it in every world.

So after a run the kept status is the one that the last command line returned, and the number that a
process ends with is made of that (`Follows.finalStatus`, `ShellProcess.Ends.code`).
-/

namespace LineShell.Shell

variable {shell : Shell} {line : Text} {record : Bool}

/-! ## Shells between two lines -/

/-- What is known of a shell between two lines, whatever its world is. -/
structure Ready (shell : Shell) : Prop extends Settled shell where
  replaying : shell.replaying = false
  entries : ∀ entry ∈ shell.state.session.history.entries,
    ∃ command, CommandLine.read entry = .command command

theorem Reachable.ready (h : Reachable shell) : Ready shell where
  toSettled := h.settled
  replaying := h.replaying
  entries _ hentry := h.read_of_mem_entries hentry

namespace Ready

theorem inWorld (h : Ready shell) (world : World) : Ready (shell.inWorld world) where
  factories := h.factories
  pendingReplay := h.pendingReplay
  history := h.history
  replaying := h.replaying
  entries := h.entries

theorem executeLine (h : Ready shell) (line : Text) (record : Bool) :
    Ready (shell.executeLine line record).shell where
  toSettled := h.toSettled.executeLine line record
  replaying := by
    rw [executeLine_shell]
    exact h.replaying
  entries entry hentry := by
    rcases h.toSettled.mem_entries_executeLine hentry with hold | ⟨-, command, hread, rfl, -⟩
    · exact h.entries entry hold
    · exact ⟨command, (CommandLine.read_significant line).trans hread⟩

end Ready

/-! ## One line -/

/-- What the execution of a line returns and what it keeps. -/
structure StatusKept (shell : Shell) (line : Text) (record : Bool) : Prop where
  blank : CommandLine.read line = .blank →
    shell.executeLine line record =
      { status := shell.state.session.lastStatus, shell, ran := [] }
  malformed : ∀ fault, CommandLine.read line = .malformed fault →
    (shell.executeLine line record).status = 2 ∧
      (shell.executeLine line record).shell.state.session.lastStatus =
        shell.state.session.lastStatus
  command : ∀ command, CommandLine.read line = .command command →
    (shell.executeLine line record).status =
      (shell.executeLine line record).shell.state.session.lastStatus
  /-- Without a replay it is the status of the command. -/
  once : ∀ command, CommandLine.read line = .command command →
    (runLine shell.factories shell.state line record).replay = none →
      CommandStatus shell.state command record (shell.executeLine line record).status
  /-- With a replay it is the status of the entry, which is read as a command line. -/
  replayed : ∀ entry, (runLine shell.factories shell.state line record).replay = some entry →
    let first := runLine shell.factories shell.state line record
    (shell.executeLine line record).status =
        ((shell.toReplay first).executeLine entry false).status ∧
      ∃ command, CommandLine.read entry = .command command ∧
        CommandStatus first.state command false (shell.executeLine line record).status

/-- A run of a command line keeps its status. -/
theorem lastStatus_runLine {state : State} {command : CommandLine}
    (hread : CommandLine.read line = .command command) :
    (runLine Factory.default state line record).state.session.lastStatus =
      (runLine Factory.default state line record).status := by
  cases lineEffect_runLine state line record with
  | unread nothing => exact absurd hread (nothing command)
  | run _ _ session => rw [session]

/-- An entry that is taken out of the queue is read as a command line. -/
theorem Ready.read_of_replay (h : Ready shell) {entry : Text}
    (hreplay : (runLine shell.factories shell.state line record).replay = some entry) :
    ∃ command, CommandLine.read entry = .command command :=
  h.entries entry ((h.lineEffect line record).replay h.pendingReplay hreplay).1

theorem Ready.statusKept (h : Ready shell) (line : Text) (record : Bool) :
    StatusKept shell line record where
  blank hread := executeLine_of_read_eq_blank hread
  malformed fault hread := by
    rw [executeLine_of_read_eq_malformed hread]
    exact ⟨rfl, rfl⟩
  command command hread := by
    rcases executeLine_cases shell line record with honce | ⟨entry, -, hreplay, htwice⟩
    · rw [honce]
      dsimp only [onceRun]
      rw [h.factories, lastStatus_runLine hread]
    · obtain ⟨replayed, hentry⟩ := h.read_of_replay hreplay
      rw [htwice]
      dsimp only
      rw [h.factories, lastStatus_runLine hentry]
  once command hread hreplay := by
    rw [executeLine_of_replay_eq_none hreplay]
    dsimp only [onceRun]
    rw [h.factories, status_runLine hread]
    exact commandStatus shell.state command record
  replayed entry hreplay := by
    intro first
    obtain ⟨replayed, hentry⟩ := h.read_of_replay hreplay
    have hstatus : ((shell.toReplay first).executeLine entry false).status =
        statusOf (runCommand Factory.default replayed false first.state) := by
      rw [executeLine_of_replaying rfl, ← h.factories]
      exact status_runLine hentry
    rw [executeLine_of_replay_eq_some h.replaying hreplay]
    refine ⟨rfl, replayed, hentry, ?_⟩
    dsimp only
    rw [hstatus]
    exact commandStatus first.state replayed false

/-! ## Runs -/

/-- The status that the execution of a step returned. -/
def Step.status (step : Step) : Status := (step.before.executeLine step.text step.record).status

/-- Whether the line of a step is neither blank nor malformed. -/
def Step.runsCommand (step : Step) : Bool :=
  match CommandLine.read step.text with
  | .command _ => true
  | .blank | .malformed _ => false

/-- The status that the last line returned which was neither blank nor malformed, or the one before
all steps if there was none. -/
def lastReturned (initial : Status) (steps : List Step) : Status :=
  ((steps.filter Step.runsCommand).getLast?.map Step.status).getD initial

theorem lastReturned_cons (initial : Status) (step : Step) (steps : List Step) :
    lastReturned initial (step :: steps) =
      lastReturned (if step.runsCommand then step.status else initial) steps := by
  unfold lastReturned
  rw [List.filter_cons]
  split
  · rw [List.getLast?_cons]
    cases (steps.filter Step.runsCommand).getLast? <;> rfl
  · rfl

/-- A step keeps the status that it returned, if it ran a command. -/
theorem Ready.lastStatus_after {step : Step} (h : Ready step.before) :
    step.after.state.session.lastStatus =
      if step.runsCommand then step.status else step.before.state.session.lastStatus := by
  have hkept := h.statusKept step.text step.record
  unfold Step.after Step.runsCommand
  cases hread : CommandLine.read step.text with
  | blank => rw [hkept.blank hread]; rfl
  | malformed fault => exact (hkept.malformed fault hread).2
  | command command => exact (hkept.command command hread).symm

/-- After a run the kept status is the last one that was returned for a command line. -/
theorem Follows.lastStatus {first last : Shell} {steps : List Step} (h : Follows first steps last)
    (hfirst : Ready first) :
    last.state.session.lastStatus = lastReturned first.state.session.lastStatus steps := by
  induction h with
  | done shell world => rfl
  | @step shell last steps world text record rest ih =>
    have hbefore := hfirst.inWorld world
    have hafter : Ready (Step.after ⟨shell.inWorld world, text, record⟩) :=
      hbefore.executeLine text record
    rw [ih hafter, lastReturned_cons, Ready.lastStatus_after hbefore]
    rfl

/-- What a run comes to: an unusable search path outweighs the status that was kept. -/
theorem Follows.finalStatus {first last : Shell} {steps : List Step}
    (h : Follows first steps last) (hfirst : Ready first) :
    last.state.session.finalStatus =
      if last.state.session.pathUnusable then 255
      else lastReturned first.state.session.lastStatus steps := by
  rw [← h.lastStatus hfirst]
  rfl

/-! ## Processes -/

/-- A shell that has just been started. -/
theorem ready_of_history {environment : Environment} {history : History} {world : World}
    (h : history = .new ∨ ∃ size, History.new.resize size = .ok history) :
    Ready { state := { session := { environment, history }, world } } := by
  have hentries : history.entries = [] ∧ history.Bounded := by
    rcases h with rfl | ⟨size, hresize⟩
    · exact ⟨rfl, History.bounded_new⟩
    · exact ⟨List.suffix_nil.1 (History.entries_isSuffix_of_resize hresize),
        History.bounded_of_resize hresize⟩
  exact
    { factories := rfl
      pendingReplay := rfl
      history := hentries.2
      replaying := rfl
      entries := fun entry hentry => by
        rw [hentries.1] at hentry
        cases hentry }

end LineShell.Shell

namespace LineShell.ShellProcess

/-- A process starts with a shell that has run nothing. -/
theorem ready_of_start {arguments strings : List Text} {directory : Location} {world : World}
    {process : ShellProcess} (h : start arguments strings directory world = .running process) :
    process.shell.Ready ∧ process.shell.state.session.lastStatus = 0 := by
  obtain ⟨given, hsetUp⟩ := start_eq_running h
  obtain ⟨history, hhistory, hopened⟩ := setUp_eq_ok hsetUp
  have hready : (unopened strings directory history world).Ready := Shell.ready_of_history hhistory
  rcases openLines_eq_ok hopened with rfl | ⟨location, rfl⟩
  · exact ⟨hready, rfl⟩
  · exact ⟨hready.inWorld _, rfl⟩

/-- Between two lines of a process its shell is ready for the next one. -/
theorem ready_of_run {first process : ShellProcess} {count : Nat} (hfirst : first.shell.Ready)
    (h : Progress.run count (.running first) = .running process) : process.shell.Ready := by
  induction count generalizing first with
  | zero =>
    cases h
    exact hfirst
  | succ count ih =>
    have hstep : first.step.run count = .running process := h
    rcases first.takes_or_ends with ⟨text, lines, world, htakes⟩ | ⟨ending, -, hended⟩
    · rw [step_of_takes htakes] at hstep
      dsimp only at hstep
      split at hstep
      · rw [run_ended] at hstep
        cases hstep
      · exact ih ((hfirst.inWorld world).executeLine text true) hstep
    · rw [hended, run_ended] at hstep
      cases hstep

/-- The exit code of a process that came to its end: the final status, as far as a process can hand
it on. -/
theorem Ends.code {process : ShellProcess} {steps : List Shell.Step} {shell : Shell}
    (h : process.Ends steps (.finished shell)) (hready : process.shell.Ready) :
    ((Exit.ofShell shell).code : Int) =
      (if shell.state.session.pathUnusable then 255
        else Shell.lastReturned process.shell.state.session.lastStatus steps) % 256 := by
  rw [← h.follows.finalStatus hready]
  exact Int.toNat_of_nonneg (Int.emod_nonneg _ (by decide))

end LineShell.ShellProcess

namespace LineShell.Shell

/-- The book-keeping of statuses.  Whatever requests have led to, a blank line returns the kept status
and changes nothing, a malformed line returns 2 and leaves the kept status alone, and any other line
keeps the status that it returns, which is the one that `CommandStatus` and `DispatchStatus` list for
what became of its command, or of the history entry that it ran again.  The final status is 255 if the
search path became unusable, and otherwise what the last of these other lines returned, or 0; a batch
returns it, and a process whose lines end or whose exit is requested ends with it modulo 256. -/
theorem statuses_kept (environment : Environment) (world : World) (requests : List Request) :
    let first := fresh environment world
    let shell := first.answerAll requests
    (∀ line record, StatusKept shell line record) ∧
    shell.state.session.finalStatus =
      (if shell.state.session.pathUnusable then 255 else lastReturned 0 (first.steps requests)) ∧
    (∀ bytes status, (shell.runBatch bytes).outcome = .ok status →
      status = (shell.runBatch bytes).shell.state.session.finalStatus) ∧
    ∀ arguments strings directory world process count exit,
      ShellProcess.start arguments strings directory world = .running process →
      Progress.run count (.running process) = .ended exit →
        ∃ steps ending, process.Ends steps ending ∧ exit = ending.exit process.feed ∧
          (process.feed = .script → ∀ world, ending ≠ .brokenDown world) ∧
          ∀ last, ending = .finished last → (exit.code : Int) =
            (if last.state.session.pathUnusable then 255 else lastReturned 0 steps) % 256 := by
  intro first shell
  have hsteps : Leads first (first.steps requests) shell := leads_steps first requests
  have hshell : Ready shell := Reachable.ready ⟨environment, world, requests, rfl⟩
  have hfirst : Ready first := Reachable.ready ⟨environment, world, [], rfl⟩
  refine ⟨hshell.statusKept, hsteps.follows.finalStatus hfirst,
    fun bytes status => outcome_runLines, ?_⟩
  intro arguments strings directory world process count exit hstart hrun
  obtain ⟨hready, hlast⟩ := ShellProcess.ready_of_start hstart
  obtain ⟨steps, ending, hends, rfl⟩ := ShellProcess.exists_ends_of_run hrun
  refine ⟨steps, ending, hends, rfl, hends.ne_brokenDown, ?_⟩
  rintro last rfl
  have hcode := hends.code hready
  rw [hlast] at hcode
  exact hcode

/-- A script of which the first line has a status that is kept.  The second line is malformed and the
third one blank, and the process ends with the status of the first. -/
theorem statuses_kept_script :
    let script : Bytes := Utf8.encode "nosuch\ncd >\n # done\n".toList
    let world : World :=
      { store := FileStore.empty.put [Path.ofText "s".toList] (.file (.ofBytes script) .ofNewFile)
        console := { kind := .inherited } }
    ∃ process exit steps last,
      ShellProcess.start ["s".toList] [] [] world = .running process ∧
      Progress.run 4 (.running process) = .ended exit ∧ exit.code = 127 ∧
      process.Ends steps (.finished last) ∧
      steps.map (·.text) = ["nosuch".toList, "cd >".toList, " # done".toList] ∧
      (exit.code : Int) =
        (if last.state.session.pathUnusable then 255 else lastReturned 0 steps) % 256 := by
  intro script world
  let process : ShellProcess :=
    { shell := (ShellProcess.unopened [] [] .new world).inWorld
        (world.addOpenFile { location := [Path.ofText "s".toList] }).2
      lines := { source := .file 0 }
      feed := .script }
  have hstart : ShellProcess.start ["s".toList] [] [] world = .running process := by
    rfl
  have halone : process.shell.LeavesAlone (Lines.split script) 0 script :=
    ⟨by decide +kernel, by decide +kernel⟩
  have houtcome : (process.shell.runBatch script).outcome = .ok 127 := by decide +kernel
  have hexit : (Exit.ofBatch (process.shell.runBatch script)).code = 127 := by decide +kernel
  obtain ⟨number, hnumber, hbatch⟩ := ShellProcess.script_runs_as_batch hstart rfl
  obtain rfl : 0 = number := Source.file.inj hnumber
  obtain ⟨steps, position, hends, htexts, hrun⟩ := hbatch script halone
  have hlines : steps.map (·.text) = ["nosuch".toList, "cd >".toList, " # done".toList] :=
    htexts.trans (by decide +kernel)
  have hlength : steps.length = 3 := by simpa using congrArg List.length hlines
  rw [hlength] at hrun
  have hfinished : ShellProcess.Ending.ofBatch (process.shell.runBatch script) 0 position =
      .finished ((process.shell.runBatch script).shell.seek 0 position) := by
    unfold ShellProcess.Ending.ofBatch
    rw [houtcome]
  rw [hfinished] at hends
  -- The course that the theorem tells of is this one, as there is no other.
  obtain ⟨-, -, -, hprocesses⟩ := statuses_kept process.shell.state.session.environment world []
  obtain ⟨steps', ending, hends', -, -, hcode⟩ := hprocesses _ _ _ _ _ _ _ hstart hrun
  obtain ⟨rfl, rfl⟩ := hends.unique hends'
  exact ⟨process, _, steps, _, hstart, hrun, hexit, hends, hlines, hcode _ rfl⟩

end LineShell.Shell
