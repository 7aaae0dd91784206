import LineShell.Proofs.FileLines
import LineShell.Proofs.ProcessRuns

/-!
# Scripts and batches

A script is read while its lines are executed, and a batch is all there from the start.  This makes no
difference as long as the lines of the script leave its file alone (`Shell.LeavesAlone`): the process
executes the steps of the batch and ends with what the batch leaves, apart from the place up to which
the script has been read.  The reason is that no line uses the open script, so that every line does the
same wherever its reading stands (`Shell.executeLine_seek`).
-/

namespace LineShell

namespace Exit

/-- The end of a process that leaves what a batch has left. -/
def ofBatch (result : Shell.BatchResult) : Exit :=
  match result.outcome with
  | .ok status => { code := status.exitCode, world := result.shell.state.world }
  | .error cause => ofError (.scriptLine cause) result.shell.state.world

/-- The end of a process with another offset of an open file. -/
def seek (exit : Exit) (number offset : Nat) : Exit :=
  { exit with world := exit.world.seek number offset }

end Exit

namespace Shell

variable {shell : Shell} {number : Nat} {bytes line : Bytes} {lines : List Bytes} {text : Text}

/-- The open file has these bytes whenever a line of the batch is executed, and at the end. -/
structure LeavesAlone (shell : Shell) (lines : List Bytes) (number : Nat) (bytes : Bytes) : Prop where
  before : ∀ step ∈ shell.batchSteps lines, step.before.state.world.Holds number bytes
  last : (shell.runLines lines).shell.state.world.Holds number bytes

namespace LeavesAlone

theorem holds (h : shell.LeavesAlone lines number bytes) :
    shell.state.world.Holds number bytes := by
  cases lines with
  | nil => exact h.last
  | cons line lines =>
    cases hdecode : Utf8.decode? line with
    | none =>
      have hlast := h.last
      rwa [runLines, hdecode] at hlast
    | some text =>
      have hbefore := h.before
      rw [batchSteps_cons_of_decode hdecode] at hbefore
      exact hbefore _ List.mem_cons_self

theorem tail (h : shell.LeavesAlone (line :: lines) number bytes)
    (hdecode : Utf8.decode? line = some text)
    (hgoesOn : (shell.executeLine text true).shell.state.session.exitRequested = false) :
    (shell.executeLine text true).shell.LeavesAlone lines number bytes := by
  obtain ⟨hbefore, hlast⟩ := h
  rw [batchSteps_cons_of_decode hdecode, if_neg (by simp [hgoesOn])] at hbefore
  rw [runLines_cons_of_decode hdecode, if_neg (by simp [hgoesOn])] at hlast
  exact ⟨fun step hstep => hbefore step (List.mem_cons_of_mem _ hstep), hlast⟩

end LeavesAlone

end Shell

namespace ShellProcess

variable {shell : Shell} {number : Nat} {bytes : Bytes} {lines : List Bytes}

/-- A process that executes the lines of an open file. -/
def ofScript (shell : Shell) (number : Nat) (buffer : Bytes) : ShellProcess :=
  { shell, lines := .ofFile number buffer, feed := .script }

/-- The course of a process that leaves what a batch has left, with another offset of an open file. -/
def Ending.ofBatch (result : Shell.BatchResult) (number offset : Nat) : Ending :=
  match result.outcome with
  | .ok _ => .finished (result.shell.seek number offset)
  | .error cause => .failed cause (result.shell.state.world.seek number offset)

theorem Ending.exit_ofBatch (shell : Shell) (lines : List Bytes) (number offset : Nat) :
    (Ending.ofBatch (shell.runLines lines) number offset).exit .script =
      (Exit.ofBatch (shell.runLines lines)).seek number offset := by
  unfold ofBatch Exit.ofBatch
  cases houtcome : (shell.runLines lines).outcome with
  | error cause => rfl
  | ok status =>
    rw [Shell.outcome_runLines houtcome]
    rfl

/-- Whatever has been read of a script, the process executes the rest of it like a batch. -/
theorem ends_of_leavesAlone (hfactories : shell.factories = Factory.default)
    (halone : shell.LeavesAlone lines number bytes) (buffer : Bytes) (offset : Nat)
    (hlines : Lines.split (buffer ++ bytes.drop offset) = lines) :
    ∃ steps position,
      (ofScript (shell.seek number offset) number buffer).Ends steps
          (.ofBatch (shell.runLines lines) number position) ∧
        steps.map (·.text) = (shell.batchSteps lines).map (·.text) := by
  induction lines generalizing shell buffer offset with
  | nil =>
    rcases LineSource.next_cases halone.holds buffer offset with
      ⟨line, rest, position, hsplit, -⟩ | ⟨position, -, hnext⟩
    · cases hsplit.symm.trans hlines
    · exact ⟨[], position, .endOfLines hnext, rfl⟩
  | cons line lines ih =>
    rcases LineSource.next_cases halone.holds buffer offset with
      ⟨first, rest, position, hsplit, hnext⟩ | ⟨position, hsplit, -⟩
    · obtain ⟨rfl, hrest⟩ := List.cons.inj (hsplit.symm.trans hlines)
      cases hdecode : Utf8.decode? first with
      | none =>
        refine ⟨[], position, ?_, ?_⟩
        · rw [Shell.runLines, hdecode]
          exact .notUtf8 hnext hdecode
        · rw [Shell.batchSteps, hdecode]
      | some text =>
        obtain ⟨file, hopen⟩ := halone.holds.exists_hasOpen
        have htakes : (ofScript (shell.seek number offset) number buffer).Takes text
            (.ofFile number rest) (shell.state.world.seek number position) :=
          ⟨first, text, hnext, hdecode, rfl⟩
        -- The line is executed by a shell that differs in the place of reading only.
        have hafter : ((ofScript (shell.seek number offset) number buffer).executing text
            (shell.state.world.seek number position)).after =
              (shell.executeLine text true).shell.seek number position :=
          congrArg Shell.Execution.shell
            (Shell.executeLine_seek hfactories hopen position text true).2
        rw [Shell.runLines_cons_of_decode hdecode, Shell.batchSteps_cons_of_decode hdecode]
        cases hexit : (shell.executeLine text true).shell.state.session.exitRequested with
        | true =>
          have hends := Ends.exitRequested htakes (by rw [hafter]; exact hexit)
          rw [hafter] at hends
          exact ⟨_, position, hends, rfl⟩
        | false =>
          have hsame : (shell.executeLine text true).shell.factories = shell.factories := by
            rw [Shell.executeLine_shell]
          obtain ⟨steps, last, hrest, htexts⟩ := ih (hsame.trans hfactories)
            (halone.tail hdecode hexit) rest position hrest
          have hends := Ends.line htakes (by rw [hafter]; exact hexit) (by rw [hafter]; exact hrest)
          exact ⟨_, last, hends, congrArg (text :: ·) htexts⟩
    · cases hsplit.symm.trans hlines

/-- A script that its own lines leave alone is executed like the batch of its bytes.  The process
executes the lines that the batch executes, and ends with the status that the batch returns, or tells
why it has failed; what is left of the world is the same, but for how far the script has been read. -/
theorem script_runs_as_batch {arguments strings : List Text} {directory : Location} {world : World}
    {process : ShellProcess} (hstart : start arguments strings directory world = .running process)
    (hfeed : process.feed = .script) :
    ∃ number, process.lines.source = .file number ∧
      ∀ bytes, process.shell.LeavesAlone (Lines.split bytes) number bytes →
        ∃ steps position,
          process.Ends steps (.ofBatch (process.shell.runBatch bytes) number position) ∧
            steps.map (·.text) = (process.shell.batchSteps (Lines.split bytes)).map (·.text) ∧
              Progress.run (steps.length + 1) (.running process) =
                .ended ((Exit.ofBatch (process.shell.runBatch bytes)).seek number position) := by
  obtain ⟨given, hsetUp⟩ := start_eq_running hstart
  obtain ⟨history, -, hopened⟩ := setUp_eq_ok hsetUp
  rcases openLines_eq_ok hopened with rfl | ⟨location, hprocess⟩
  · cases hfeed
  refine ⟨world.openFiles.length, by rw [hprocess]; rfl, fun bytes halone => ?_⟩
  have hopen : process.shell.state.world.HasOpen world.openFiles.length { location } := by
    rw [hprocess]
    exact List.getElem?_concat_length
  have hsame : ofScript (process.shell.seek world.openFiles.length 0) world.openFiles.length [] =
      process := by
    have hseek : process.shell.seek world.openFiles.length 0 = process.shell :=
      Shell.seek_self hopen
    rw [hseek, hprocess]
    rfl
  obtain ⟨steps, position, hends, htexts⟩ :=
    ends_of_leavesAlone (by rw [hprocess]; rfl) halone [] 0 rfl
  rw [hsame] at hends
  refine ⟨steps, position, hends, htexts, ?_⟩
  rw [hends.run, hfeed, Ending.exit_ofBatch]
  rfl

/-- A script that writes to itself goes on with what it has written, and a batch does not. -/
example :
    let script : Bytes := Utf8.encode "pwd >> s\n".toList
    let world : World :=
      { store := FileStore.empty.put [Path.ofText "s".toList] (.file (.ofBytes script) .ofNewFile)
        console := { kind := .inherited } }
    ((unopened [] [] .new world).runBatch script).outcome = .ok 0 ∧
      (match (start ["s".toList] [] [] world).run 3 with
        | .running _ => none
        | .ended exit => some exit.code) = some 127 := by
  decide +kernel

end ShellProcess

end LineShell
