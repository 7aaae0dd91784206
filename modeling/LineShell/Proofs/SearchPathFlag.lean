import LineShell.Proofs.KeptStatuses
import LineShell.Proofs.ProgramSearch
import LineShell.Proofs.SessionFrames

/-!
# The flag of an unusable search path

A session is marked when a search path without any directory is exported, and the mark outweighs
every status.  The runs of a step are the run of its line and, if that has queued a history entry,
the run of the entry (`Shell.Step.runs`).  `Shell.Step.BreaksSearchPath` is the event in one of them:
an assignment to the search path was exported with success, and its value had no directory at that
moment.

One run raises the flag exactly if it is such an event (`Shell.Step.pathUnusable_result`), so a step
raises it exactly if one of its runs is, and a run of any length exactly if one of its steps did, in
whatever way the world changes in between (`Shell.Follows.pathUnusable_iff`).
-/

namespace LineShell

/-! ## Assignments to the search path -/

namespace Builtin

variable {name value : Text}

/-- The assignment of a value to the search path. -/
def searchPathAssignment (value : Text) : Text := Program.searchVariable ++ '=' :: value

theorem exportAssignment_searchPathAssignment (value : Text) :
    exportAssignment (searchPathAssignment value) = .ok (Program.searchVariable, value) := rfl

theorem breaksSearchPath_eq_true_iff {state : State} :
    breaksSearchPath name value state = true ↔
      name = Program.searchVariable ∧
        Program.Unusable state.world.store state.session.environment.directory value := by
  unfold breaksSearchPath
  rw [Bool.and_eq_true, beq_iff_eq, Bool.not_eq_true', Program.isUsableSearchPath_eq_false_iff]

end Builtin

/-- Only the export of a search path without a directory raises the flag. -/
theorem Call.Effect.pathUnusable_iff {state : State} {call : Call} {status : Status}
    {after : Session} (h : Effect state call status after) :
    after.pathUnusable = true ↔
      state.session.pathUnusable = true ∨
        ∃ value, call = .exportVariable (Builtin.searchPathAssignment value) ∧
          Program.Unusable state.world.store state.session.environment.directory value := by
  cases h with
  | @exportVariable assignment name value valid =>
    unfold Session.exporting
    rw [Bool.or_eq_true, Builtin.breaksSearchPath_eq_true_iff]
    refine or_congr_right ⟨?_, ?_⟩
    · rintro ⟨rfl, hunusable⟩
      exact ⟨value, congrArg _ (Builtin.exportAssignment_eq_ok_iff.1 valid).2, hunusable⟩
    · rintro ⟨value', hcall, hunusable⟩
      cases hcall
      cases valid.symm.trans (Builtin.exportAssignment_searchPathAssignment value')
      exact ⟨rfl, hunusable⟩
  | cd _ | pwd | localVariable _ | vars | list | resize _ | replay _ _ | ls | exit _ =>
    simp [Builtin.enter]

theorem Call.Effect.status_exportVariable {state : State} {assignment : Text} {status : Status}
    {after : Session} (h : Effect state (.exportVariable assignment) status after) : status = 0 := by
  cases h
  rfl

/-- The state in which a run has ended, on its own account or with an error. -/
def stateOf : EStateM.Result ShellError State Status → State
  | .ok _ last => last
  | .error _ last => last

namespace Shell

/-! ## The runs of a step -/

/-- The run of the line of a step, without the history entry that it may have queued. -/
def Step.result (step : Step) : LineResult :=
  runLine step.before.factories step.before.state step.text step.record

/-- What is run in a step: its line, and the history entry that this line queued. -/
def Step.runs (step : Step) : List Step :=
  step ::
    match step.result.replay with
    | none => []
    | some entry =>
      if step.before.replaying then []
      else [{ before := step.before.toReplay step.result, text := entry, record := false }]

/-- The run exports a value of the search path with success, and this is the file store at that
moment. -/
inductive Step.ExportsSearchPath (run : Step) : Text → FileStore → Prop
  | intro {command : CommandLine} {arguments : List Text} {value : Text} {streams : Streams}
      {opened : World} (reads : CommandLine.read run.text = .command command)
      (calls : (command.expand run.before.state.session.scope).arguments =
        Builtin.exportVariable.name :: arguments)
      (assigns : Builtin.exportVariable.read arguments =
        .ok (some (.exportVariable (Builtin.searchPathAssignment value))))
      (opens : (command.expand run.before.state.session.scope).targets.openAll
        run.before.state.session.environment .ofConsole run.before.state.world =
          .ok streams opened)
      (succeeds : run.result.status = 0) :
      ExportsSearchPath run value opened.store

/-- The run exports a search path that has no directory at that moment. -/
def Step.BreaksSearchPath (run : Step) : Prop :=
  ∃ value store, run.ExportsSearchPath value store ∧
    Program.Unusable store run.before.state.session.environment.directory value

/-! ## One run -/

variable {factories : List Factory} {state after : State} {line : Text} {record : Bool}
  {command : CommandLine} {status : Status}

/-- The flag after the run of a line is the one after its command. -/
theorem pathUnusable_runLine (hread : CommandLine.read line = .command command) :
    (runLine factories state line record).state.session.pathUnusable =
      (stateOf (runCommand factories command record state)).session.pathUnusable := by
  unfold runLine
  rw [hread]
  dsimp only
  cases runCommand factories command record state with
  | ok status after => rfl
  | error error after =>
    dsimp only
    split <;> rfl

/-- A builtin that succeeds is all that its line does. -/
theorem dispatch_of_run_eq_ok {name : Text} {arguments : List Text} {streams : Streams}
    {builtin : Builtin} {call : Call} (hname : builtin.name = name)
    (hread : builtin.read arguments = .ok (some call))
    (hrun : call.run (Outputs.ofStreams streams) state = .ok status after) :
    dispatch Factory.default name arguments streams state = .ok status after := by
  rw [dispatch_of_builtin hname]
  unfold Command.ofBuiltin
  rw [hread]
  dsimp only
  unfold Command.ofCall
  rw [hrun]

/-- A command raises the flag if and only if it is the export of a search path without a directory,
and succeeds. -/
theorem pathUnusable_dispatch_iff {name : Text} {arguments : List Text} {streams : Streams} :
    (stateOf (dispatch Factory.default name arguments streams state)).session.pathUnusable = true ↔
      state.session.pathUnusable = true ∨
        Builtin.exportVariable.name = name ∧
          statusOf (dispatch Factory.default name arguments streams state) = 0 ∧
          ∃ value, Builtin.exportVariable.read arguments =
              .ok (some (.exportVariable (Builtin.searchPathAssignment value))) ∧
            Program.Unusable state.world.store state.session.environment.directory value := by
  constructor
  · intro hraised
    cases hdone : dispatch Factory.default name arguments streams state with
    | error error last =>
      rw [hdone] at hraised
      rw [← (dispatch_eq_error hdone).1]
      exact .inl hraised
    | ok status last =>
      rw [hdone] at hraised
      rcases dispatch_eq_ok hdone with hsame | ⟨builtin, call, hname, hread, heffect⟩
      · rw [← hsame]
        exact .inl hraised
      refine (heffect.pathUnusable_iff.1 hraised).imp id ?_
      rintro ⟨value, rfl, hunusable⟩
      cases Call.builtin_of_read hread
      exact ⟨hname, heffect.status_exportVariable, value, hread, hunusable⟩
  · rintro (hraised | ⟨rfl, hsucceeds, value, hread, hunusable⟩)
    · cases hdone : dispatch Factory.default name arguments streams state with
      | error error last =>
        rw [← (dispatch_eq_error hdone).1] at hraised
        exact hraised
      | ok status last =>
        rcases dispatch_eq_ok hdone with hsame | ⟨_, _, -, -, heffect⟩
        · rw [← hsame] at hraised
          exact hraised
        · exact heffect.grows.pathUnusable hraised
    · let call : Call := .exportVariable (Builtin.searchPathAssignment value)
      cases hrun : call.run (Outputs.ofStreams streams) state with
      | error failure after =>
        have hone := (dispatchStatus state _ _ _).failed _ _ failure after rfl hread hrun
        cases hsucceeds.symm.trans hone
      | ok status after =>
        rw [dispatch_of_run_eq_ok rfl hread hrun]
        exact (Call.effect_of_run_ok hrun).pathUnusable_iff.2 (.inr ⟨value, rfl, hunusable⟩)

/-- A search path without a directory that is exported with success raises the flag. -/
theorem Step.BreaksSearchPath.pathUnusable_result {run : Step} (h : run.BreaksSearchPath)
    (hfactories : run.before.factories = Factory.default) :
    run.result.state.session.pathUnusable = true := by
  obtain ⟨value, store, hexports, hunusable⟩ := h
  cases hexports with
  | intro hread hcalls hassigns hopens hsucceeds =>
    unfold Step.result at hsucceeds ⊢
    rw [hfactories] at hsucceeds ⊢
    rw [status_runLine hread, runCommand_of_openAll hcalls hopens] at hsucceeds
    rw [pathUnusable_runLine hread, runCommand_of_openAll hcalls hopens,
      pathUnusable_dispatch_iff, environment_startingSession]
    exact .inr ⟨rfl, hsucceeds, value, hassigns, hunusable⟩

/-- Whatever raises the flag is a search path without a directory, exported with success. -/
theorem Step.breaksSearchPath_of_result {run : Step}
    (hfactories : run.before.factories = Factory.default)
    (h : run.result.state.session.pathUnusable = true) :
    run.before.state.session.pathUnusable = true ∨ run.BreaksSearchPath := by
  unfold Step.result at h
  rw [hfactories] at h
  cases hread : CommandLine.read run.text with
  | blank =>
    rw [runLine_of_blank hread] at h
    exact .inl h
  | malformed fault =>
    rw [runLine_of_malformed hread] at h
    exact .inl h
  | command command =>
    rw [pathUnusable_runLine hread] at h
    cases hwords : (command.expand run.before.state.session.scope).arguments with
    | nil =>
      rw [runCommand_of_arguments_eq_nil hwords] at h
      exact .inl h
    | cons name arguments =>
      cases hopens : (command.expand run.before.state.session.scope).targets.openAll
          run.before.state.session.environment .ofConsole run.before.state.world with
      | error error after =>
        rw [runCommand_of_openAll_error hwords hopens] at h
        exact .inl ((pathUnusable_startingSession _ _ _).symm.trans h)
      | ok streams opened =>
        rw [runCommand_of_openAll hwords hopens, pathUnusable_dispatch_iff,
          pathUnusable_startingSession, environment_startingSession] at h
        refine h.imp id fun ⟨hname, hsucceeds, value, hassigns, hunusable⟩ => ?_
        refine ⟨value, opened.store, ?_, hunusable⟩
        refine .intro hread (hname ▸ hwords) hassigns hopens ?_
        unfold Step.result
        rw [hfactories, status_runLine hread, runCommand_of_openAll hwords hopens]
        exact hsucceeds

theorem Step.pathUnusable_result {run : Step} (h : run.before.factories = Factory.default) :
    run.result.state.session.pathUnusable = true ↔
      run.before.state.session.pathUnusable = true ∨ run.BreaksSearchPath := by
  have hgrows : run.before.state.session.Grows run.result.state.session := by
    unfold Step.result
    rw [h]
    exact (lineEffect_runLine _ run.text run.record).grows
  constructor
  · exact breaksSearchPath_of_result h
  · rintro (hbefore | hbreaks)
    · exact hgrows.pathUnusable hbefore
    · exact hbreaks.pathUnusable_result h

/-! ## Whole runs -/

/-- A step is one run or two, and the second one goes on from the first. -/
theorem Step.runs_cases (step : Step) :
    step.runs = [step] ∧ step.after.state = step.result.state ∨
      ∃ replay : Step, step.runs = [step, replay] ∧
        replay.before = step.before.toReplay step.result ∧
          step.after.state = replay.result.state := by
  unfold Step.runs Step.after
  cases hreplay : step.result.replay with
  | none =>
    refine .inl ⟨rfl, ?_⟩
    rw [executeLine_of_replay_eq_none hreplay]
    rfl
  | some entry =>
    cases hreplaying : step.before.replaying with
    | true =>
      refine .inl ⟨rfl, ?_⟩
      rw [executeLine_of_replaying hreplaying]
      rfl
    | false =>
      refine .inr ⟨_, rfl, rfl, ?_⟩
      rw [executeLine_of_replay_eq_some hreplaying hreplay]
      dsimp only
      rw [executeLine_of_replaying rfl]
      rfl

theorem Step.pathUnusable_after {step : Step} (h : step.before.factories = Factory.default) :
    step.after.state.session.pathUnusable = true ↔
      step.before.state.session.pathUnusable = true ∨ ∃ run ∈ step.runs, run.BreaksSearchPath := by
  rcases step.runs_cases with ⟨hruns, hafter⟩ | ⟨replay, hruns, hbefore, hafter⟩
  · rw [hafter, hruns, pathUnusable_result h]
    simp
  · have hfactories : replay.before.factories = Factory.default := by rw [hbefore]; exact h
    have hsession : replay.before.state = step.result.state := by rw [hbefore]; rfl
    rw [hafter, hruns, pathUnusable_result hfactories, hsession, pathUnusable_result h]
    simp [or_assoc]

/-- After a run the flag is raised if it was raised before or one of the runs has broken the search
path. -/
theorem Follows.pathUnusable_iff {first last : Shell} {steps : List Step}
    (h : Follows first steps last) (hfirst : first.factories = Factory.default) :
    last.state.session.pathUnusable = true ↔
      first.state.session.pathUnusable = true ∨
        ∃ step ∈ steps, ∃ run ∈ step.runs, run.BreaksSearchPath := by
  induction h with
  | done shell world => simp [inWorld]
  | @step shell last steps world text record rest ih =>
    have hafter : (Step.after ⟨shell.inWorld world, text, record⟩).factories = Factory.default := by
      unfold Step.after
      rw [executeLine_shell]
      exact hfirst
    rw [ih hafter, Step.pathUnusable_after hfirst]
    simp [inWorld, or_assoc]

/-- The flag outweighs the status that was kept. -/
theorem finalStatus_of_pathUnusable {session : Session} (h : session.pathUnusable = true) :
    session.finalStatus = 255 := if_pos h

/-- The flag of an unusable search path.  After any requests to a fresh session it is raised if and only
if, in one of the runs before, an assignment to the search path was exported with success while none
of its parts named a directory.  Whatever is requested then, the final status is 255, and so is the
result of a batch that ends without an error; this includes the batch that raises the flag.  A search
path that has no directory finds no program, unless the name is a path itself. -/
theorem unusable_search_path_is_final (environment : Environment) (world : World)
    (requests : List Request) :
    let first := fresh environment world
    let shell := first.answerAll requests
    (shell.state.session.pathUnusable = true ↔
      ∃ step ∈ first.steps requests, ∃ run ∈ step.runs, run.BreaksSearchPath) ∧
    (shell.state.session.pathUnusable = true → ∀ further,
      let later := shell.answerAll further
      later.state.session.pathUnusable = true ∧ later.state.session.finalStatus = 255 ∧
        ∀ bytes status, (later.runBatch bytes).outcome = .ok status → status = 255) ∧
    (∀ bytes status, (shell.runBatch bytes).outcome = .ok status →
      (∃ step ∈ shell.batchSteps (Lines.split bytes), ∃ run ∈ step.runs, run.BreaksSearchPath) →
        status = 255) ∧
    ∀ (store : FileStore) (environment : Environment) (value name : Text),
      Program.isUsableSearchPath store environment value = false → '/' ∉ name →
        Program.find? store value environment.directory name = none := by
  intro first shell
  have hsettled : Settled shell :=
    ((leads_steps first requests).settled (settled_fresh environment world)).1
  refine ⟨?_, ?_, ?_, ?_⟩
  · have hflag := (leads_steps first requests).follows.pathUnusable_iff rfl
    exact hflag.trans (or_iff_right nofun)
  · intro hraised further later
    have hlater : later.state.session.pathUnusable = true :=
      ((leads_steps shell further).grows hsettled.factories).pathUnusable hraised
    have hfactories : later.factories = Factory.default :=
      ((leads_steps shell further).settled hsettled).1.factories
    refine ⟨hlater, finalStatus_of_pathUnusable hlater, fun bytes status houtcome => ?_⟩
    rw [outcome_runLines houtcome]
    refine finalStatus_of_pathUnusable ?_
    exact ((leads_batchSteps later (Lines.split bytes)).grows hfactories).pathUnusable hlater
  · intro bytes status houtcome hbreaks
    rw [outcome_runLines houtcome]
    refine finalStatus_of_pathUnusable ?_
    exact ((leads_batchSteps shell _).follows.pathUnusable_iff hsettled.factories).2 (.inr hbreaks)
  · intro store environment value name hunusable hname
    exact Program.find?_of_unusable (Program.isUsableSearchPath_eq_false_iff.1 hunusable) hname

/-- A line that is recorded while its program is not found breaks the search path when it is replayed
with another value of its variable.  Neither a repaired search path nor an exit status undoes that. -/
theorem unusable_search_path_is_final_replayed :
    let requests : List Request :=
      [.line "local c=nosuch".toList true, .line "$c PATH=no:".toList true,
        .line "local c=export".toList true, .line "history 1".toList true]
    let shell := bare.answerAll requests
    let later := shell.answerAll [.line "export PATH=/".toList true, .line "exit 3".toList true]
    (∃ step ∈ bare.steps requests, ∃ run ∈ step.runs, run.BreaksSearchPath) ∧
      later.state.session.lastStatus = 3 ∧ later.state.session.finalStatus = 255 ∧
      (∃ status, (later.runBatch (Utf8.encode "exit 4\n".toList)).outcome = .ok status ∧
        status = 255) ∧
      Program.find? .empty "no:".toList [Path.slash] "sh".toList = none := by
  intro requests shell later
  have hraised : shell.state.session.pathUnusable = true := by decide +kernel
  have houtcome : (later.runBatch (Utf8.encode "exit 4\n".toList)).outcome = .ok 255 := by
    decide +kernel
  obtain ⟨hflag, hfinal, -, hsearch⟩ :=
    unusable_search_path_is_final bare.state.session.environment bare.state.world requests
  obtain ⟨-, hstatus, hbatch⟩ := hfinal hraised _
  refine ⟨hflag.1 hraised, by decide +kernel, hstatus, ⟨_, houtcome, hbatch _ _ houtcome⟩, ?_⟩
  exact hsearch .empty bare.state.session.environment "no:".toList "sh".toList (by decide +kernel)
    (by decide)

end Shell

end LineShell
