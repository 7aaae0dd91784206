import LineShell.Proofs.BatchRuns
import LineShell.Proofs.FailedBuiltins
import LineShell.Proofs.Numerals
import LineShell.Proofs.Operands
import LineShell.Proofs.SearchPathFlag
import Mathlib.Data.List.DropRight

/-!
# Numbers as operands

Two builtins take a number that was written by hand: `history set` takes the size of the history, and
`exit` the status to end with.  Any word can reach them, behind `set` because everything behind the
first operand of `history` is one, and behind `--` because that ends the options.

A word that is no numeral, or whose number is out of range, makes the call fail, and then the session
is the one from before except for the status 1.  A number within the range is taken as it is
(`Shell.SizeAsked`, `Shell.ExitAsked`).  Both hold of each run of a line, and since these calls queue
nothing, a run is the last one of its step (`Shell.Step.ends_with_run`).
-/

namespace LineShell

open LineShell.Action

/-! ## Operands that are read as they are -/

namespace Grammar

variable {grammar : Grammar} {word : Text}

/-- Behind the first of any number of operands everything is one. -/
theorem readFrom_operandsOnly (h : grammar.operands = .many) (given : Given)
    (arguments : List Text) :
    grammar.readFrom { given, operandsOnly := true } arguments =
      .ok { given := { given with operands := given.operands ++ arguments }
            operandsOnly := true } := by
  induction arguments generalizing given with
  | nil => simp [readFrom]
  | cons argument rest ih =>
    have htaken : grammar.takeOperand { given, operandsOnly := true } argument =
        .ok { given := { given with operands := given.operands ++ [argument] }
              operandsOnly := true } := by
      unfold takeOperand hasRoom
      rw [h]
      rfl
    rw [readFrom, if_neg (by simp), if_neg (by simp), htaken]
    dsimp only
    rw [ih, List.append_assoc]
    rfl

theorem read_many (h : grammar.operands = .many) (hoption : word.head? ≠ some '-')
    (hhelp : word ≠ "help".toList) (arguments : List Text) :
    grammar.read (word :: arguments) = .ok (some { operands := word :: arguments }) := by
  have hword := not_mem_helpWords hoption hhelp
  have htaken : grammar.readFrom {} (word :: arguments) =
      .ok { given := { operands := word :: arguments }, operandsOnly := true } := by
    rw [readFrom, if_neg (by simp [hword]), if_neg (by simp [hoption]),
      takeOperand_of_ne_none (by rw [h]; decide), h]
    exact readFrom_operandsOnly h _ arguments
  unfold read
  rw [htaken]
  dsimp only
  rw [h]
  rfl

end Grammar

/-- What stays are the newest entries, as many as there are and as many as fit. -/
theorem History.resize_eq_ok_iff_rtake {history resized : History} {n : Nat} :
    history.resize n = .ok resized ↔
      n ≤ 100 ∧ resized = ⟨n, history.entries.rtake (min history.entries.length n)⟩ := by
  have hkept : history.entries.length - min history.entries.length n =
      history.entries.length - n := by omega
  rw [resize_eq_ok_iff, List.rtake, hkept]
  rfl

namespace Builtin

/-- Behind `set` every word reaches the history. -/
theorem read_history_set (word : Text) :
    Builtin.history.read [setWord, word] = .ok (some (.history [setWord, word])) := by
  have hread : Builtin.history.grammar.read [setWord, word] =
      .ok (some { operands := [setWord, word] }) :=
    Grammar.read_many rfl (by decide) (by decide) [word]
  unfold Builtin.read
  rw [hread]
  rfl

/-! ## The calls -/

variable {word : Text} {session : Session}

/-- `history set` succeeds with every number within the limit. -/
theorem run_history_set {n : Nat} (hn : n ≤ 100) (hdenotes : Numeral.DenotesSize word n)
    (outputs : Outputs) (world : World) :
    (Call.history [setWord, word]).run outputs ⟨session, world⟩ =
      .ok 0 ⟨{ session with
        history := ⟨n, session.history.entries.rtake (min session.history.entries.length n)⟩ },
        world⟩ := by
  have hfits : n ≤ Numeral.maxSize := hn.trans (by decide)
  refine bind_of_eq_ok (check_eq_ok.2 ⟨?_, rfl⟩)
  unfold resizedHistory
  rw [Numeral.readSize_eq_ok_iff.2 ⟨hdenotes, hfits⟩]
  exact mapError_eq_ok.2 (History.resize_eq_ok_iff_rtake.2 ⟨hn, rfl⟩)

/-- `history set` fails with everything else. -/
theorem exists_run_history_set_eq_error (h : ¬ ∃ n ≤ 100, Numeral.DenotesSize word n)
    (outputs : Outputs) (world : World) :
    ∃ e, (Call.history [setWord, word]).run outputs ⟨session, world⟩ = .error e ⟨session, world⟩ := by
  cases hresized : resizedHistory word ⟨session, world⟩ with
  | error e => exact ⟨e, bind_eq_error.2 (.inl (check_eq_error.2 ⟨hresized, rfl⟩))⟩
  | ok resized =>
    unfold resizedHistory at hresized
    cases hread : Numeral.readSize word with
    | error fault =>
      rw [hread] at hresized
      cases hresized
    | ok n =>
      rw [hread] at hresized
      have hn := (History.resize_eq_ok_iff_rtake.1 (mapError_eq_ok.1 hresized)).1
      exact absurd ⟨n, hn, (Numeral.readSize_eq_ok_iff.1 hread).1⟩ h

/-- `exit` succeeds with every exit code. -/
theorem run_exit {code : Int} (hcode : Numeral.IsCode word code) (outputs : Outputs)
    (world : World) :
    (Call.exit (some word)).run outputs ⟨session, world⟩ =
      .ok code ⟨{ session with exitRequested := true }, world⟩ :=
  bind_of_eq_ok (check_eq_ok.2 ⟨mapError_eq_ok.2 (Numeral.readCode_eq_ok_iff.2 hcode), rfl⟩)

/-- `exit` fails with everything else. -/
theorem exists_run_exit_eq_error (h : ¬ ∃ code, Numeral.IsCode word code) (outputs : Outputs)
    (world : World) :
    ∃ e, (Call.exit (some word)).run outputs ⟨session, world⟩ = .error e ⟨session, world⟩ := by
  cases hstatus : exitStatus (some word) ⟨session, world⟩ with
  | error e => exact ⟨e, bind_eq_error.2 (.inl (check_eq_error.2 ⟨hstatus, rfl⟩))⟩
  | ok status => exact absurd ⟨status, Numeral.readCode_eq_ok_iff.1 (mapError_eq_ok.1 hstatus)⟩ h

end Builtin

namespace Shell

variable {step run : Step} {builtin : Builtin} {arguments : List Text} {call : Call}

/-! ## The runs of such calls -/

/-- The line of the run calls the builtin with these arguments, and its files can be opened. -/
inductive Step.Calls (run : Step) (builtin : Builtin) (arguments : List Text) : Prop
  | intro {command : CommandLine} {streams : Streams} {opened : World}
      (reads : CommandLine.read run.text = .command command)
      (calls : (command.expand run.before.state.session.scope).arguments =
        builtin.name :: arguments)
      (opens : (command.expand run.before.state.session.scope).targets.openAll
        run.before.state.session.environment .ofConsole run.before.state.world =
          .ok streams opened)

/-- A run that queues nothing is the last one of its step, and the step ends as it does. -/
theorem Step.ends_with_run (hrun : run ∈ step.runs) (hnone : run.result.replay = none) :
    step.status = run.result.status ∧ step.after.state = run.result.state := by
  unfold Step.runs at hrun
  unfold Step.status Step.after
  cases hreplay : step.result.replay with
  | none =>
    rw [hreplay] at hrun
    obtain rfl : run = step := List.mem_singleton.1 hrun
    rw [executeLine_of_replay_eq_none hreplay]
    exact ⟨rfl, rfl⟩
  | some entry =>
    have hne : run ≠ step := by
      rintro rfl
      cases hreplay.symm.trans hnone
    rw [hreplay] at hrun
    have hreplayed := (List.mem_cons.1 hrun).resolve_left hne
    dsimp only at hreplayed
    split at hreplayed
    · cases hreplayed
    · next hreplaying =>
      -- The run is that of the entry, and nothing is replayed behind it.
      obtain rfl := List.mem_singleton.1 hreplayed
      rw [executeLine_of_replay_eq_some (Bool.eq_false_iff.2 hreplaying) hreplay]
      dsimp only
      rw [executeLine_of_replaying rfl]
      exact ⟨rfl, rfl⟩

theorem Settled.of_mem_runs (h : Settled step.before) (hrun : run ∈ step.runs) :
    Settled run.before := by
  rcases step.runs_cases with ⟨hruns, -⟩ | ⟨replay, hruns, hbefore, -⟩
  · rw [hruns] at hrun
    obtain rfl := List.mem_singleton.1 hrun
    exact h
  · rw [hruns] at hrun
    rcases List.mem_pair.1 hrun with rfl | rfl
    · exact h
    · rw [hbefore]
      exact h.toReplay step.text step.record

/-- A run ends with a status, a session in which only this status is new, and nothing to be replayed. -/
structure LineResult.Keeps (result : LineResult) (status : Status) (session : Session) : Prop where
  status_eq : result.status = status
  session_eq : result.state.session = { session with lastStatus := status }
  replay_eq : result.replay = none

theorem keeps_finish {state : State} {session : Session} (status : Status) (command : CommandLine)
    (hsession : state.session = session) (hnone : session.pendingReplay = none) :
    (finish status command state).Keeps status session := by
  subst hsession
  rw [finish_of_pendingReplay_eq_none hnone]
  exact ⟨rfl, rfl, rfl⟩

/-- A call that succeeds without writing anything changes what it has to change. -/
theorem Step.Calls.keeps_of_run_eq_ok {status : Status} {after : Session}
    (h : run.Calls builtin arguments) (hsettled : Settled run.before)
    (hreads : builtin.read arguments = .ok (some call))
    (hrun : ∀ outputs world, call.run outputs ⟨run.before.state.session, world⟩ =
      .ok status ⟨after, world⟩)
    (hnone : after.pendingReplay = none) : run.result.Keeps status after := by
  cases h with
  | @intro command streams opened reads calls opens =>
    have hcommand : runCommand Factory.default command run.record run.before.state =
        .ok status ⟨after, opened⟩ := by
      rw [runCommand_of_openAll calls opens, startingSession_of_builtin calls,
        dispatch_of_run_eq_ok rfl hreads (hrun _ opened)]
    unfold Step.result
    rw [hsettled.factories, runLine_of_runCommand_eq_ok reads hcommand]
    exact keeps_finish status command rfl hnone

/-- A call that fails changes nothing, whether or not it can tell why it has failed. -/
theorem Step.Calls.keeps_of_run_eq_error (h : run.Calls builtin arguments)
    (hsettled : Settled run.before) (hreads : builtin.read arguments = .ok (some call))
    (hrun : ∀ outputs world, ∃ e, call.run outputs ⟨run.before.state.session, world⟩ =
      .error e ⟨run.before.state.session, world⟩) :
    run.result.Keeps 1 run.before.state.session := by
  cases h with
  | @intro command streams opened reads calls opens =>
    obtain ⟨e, hfailed⟩ := hrun (Outputs.ofStreams streams) opened
    have hfails := Command.fails_of_run_eq_error hreads hfailed
    have hcommand : runCommand Factory.default command run.record run.before.state =
        Command.ofBuiltin builtin arguments streams ⟨run.before.state.session, opened⟩ := by
      rw [runCommand_of_openAll calls opens, startingSession_of_builtin calls,
        dispatch_of_builtin rfl]
    unfold Step.result
    rw [hsettled.factories]
    -- If the command cannot tell why it has failed, that is an error in place of a status.
    cases hdone : runCommand Factory.default command run.record run.before.state with
    | ok status last =>
      obtain ⟨rfl, hsession⟩ := hfails.ok (hcommand.symm.trans hdone)
      rw [runLine_of_runCommand_eq_ok reads hdone]
      exact keeps_finish 1 command hsession hsettled.pendingReplay
    | error error last =>
      obtain ⟨hstatus, hsession⟩ := hfails.error (hcommand.symm.trans hdone)
      rw [runLine_of_runCommand_eq_error reads hdone (runCommand_eq_error hdone).2, hstatus]
      exact keeps_finish 1 command hsession hsettled.pendingReplay

/-! ## What the two commands do -/

/-- What comes of asking for the size that a word says. -/
structure SizeAsked (word : Text) (before : Session) (status : Status) (after : Session) : Prop where
  succeeds_iff : status = 0 ↔ ∃ n ≤ 100, Numeral.DenotesSize word n
  accepted : ∀ n ≤ 100, Numeral.DenotesSize word n →
    after =
      { before with
        history := ⟨n, before.history.entries.rtake (min before.history.entries.length n)⟩
        lastStatus := 0 }
  refused : (¬ ∃ n ≤ 100, Numeral.DenotesSize word n) →
    status = 1 ∧ after = { before with lastStatus := 1 }

/-- What comes of asking for the exit with the status that a word says. -/
structure ExitAsked (word : Text) (before : Session) (status : Status) (after : Session) : Prop where
  requested_iff : after.exitRequested = true ↔
    before.exitRequested = true ∨ ∃ code, Numeral.IsCode word code
  accepted : ∀ code, Numeral.IsCode word code →
    status = code ∧ after = { before with lastStatus := code, exitRequested := true }
  refused : (¬ ∃ code, Numeral.IsCode word code) →
    status = 1 ∧ after = { before with lastStatus := 1 }

variable {word : Text}

/-- A step that ends with such a run keeps what the run keeps. -/
theorem LineResult.Keeps.ends {status : Status} {session : Session}
    (h : run.result.Keeps status session) (hrun : run ∈ step.runs) :
    step.status = status ∧ step.after.state.session = { session with lastStatus := status } := by
  obtain ⟨hstatus, hstate⟩ := Step.ends_with_run hrun h.replay_eq
  rw [hstatus, hstate]
  exact ⟨h.status_eq, h.session_eq⟩

theorem Step.Calls.sizeAsked (h : run.Calls .history [Builtin.setWord, word])
    (hsettled : Settled step.before) (hrun : run ∈ step.runs) :
    SizeAsked word run.before.state.session step.status step.after.state.session := by
  have hbefore := hsettled.of_mem_runs hrun
  have hreads := Builtin.read_history_set word
  have haccepted (n : Nat) (hn : n ≤ 100) (hdenotes : Numeral.DenotesSize word n) :=
    (h.keeps_of_run_eq_ok hbefore hreads (Builtin.run_history_set hn hdenotes)
      hbefore.pendingReplay).ends hrun
  have hrefused (hno : ¬ ∃ n ≤ 100, Numeral.DenotesSize word n) :=
    (h.keeps_of_run_eq_error hbefore hreads
      (Builtin.exists_run_history_set_eq_error hno)).ends hrun
  refine ⟨⟨fun hzero => ?_, ?_⟩, fun n hn hdenotes => (haccepted n hn hdenotes).2, hrefused⟩
  · by_contra hno
    cases hzero.symm.trans (hrefused hno).1
  · rintro ⟨n, hn, hdenotes⟩
    exact (haccepted n hn hdenotes).1

theorem Step.Calls.exitAsked (h : run.Calls .exit [Grammar.endOfOptions, word])
    (hsettled : Settled step.before) (hrun : run ∈ step.runs) :
    ExitAsked word run.before.state.session step.status step.after.state.session := by
  have hbefore := hsettled.of_mem_runs hrun
  have hreads : Builtin.exit.read [Grammar.endOfOptions, word] = .ok (some (.exit (some word))) :=
    Builtin.read_behind_endOfOptions (by decide) word
  have haccepted (code : Int) (hcode : Numeral.IsCode word code) :=
    (h.keeps_of_run_eq_ok hbefore hreads (Builtin.run_exit hcode) hbefore.pendingReplay).ends hrun
  have hrefused (hno : ¬ ∃ code, Numeral.IsCode word code) :=
    (h.keeps_of_run_eq_error hbefore hreads (Builtin.exists_run_exit_eq_error hno)).ends hrun
  refine ⟨?_, haccepted, hrefused⟩
  by_cases hcode : ∃ code, Numeral.IsCode word code
  · obtain ⟨code, hcode⟩ := hcode
    rw [(haccepted code hcode).2]
    exact ⟨fun _ => .inr ⟨code, hcode⟩, fun _ => rfl⟩
  · rw [(hrefused hcode).2]
    exact ⟨.inl, fun h => h.resolve_right hcode⟩

/-- Without an unusable search path the final status is the one that was kept. -/
theorem finalStatus_of_pathUnusable_eq_false {session : Session}
    (h : session.pathUnusable = false) : session.finalStatus = session.lastStatus := by
  unfold Session.finalStatus
  rw [h]
  rfl

/-- Numbers as operands are never wrapped.  Of the words that a line, or a history entry that is run
again, gives to `history set`, those succeed that are numerals of at most 100; the history then has this
capacity and its newest entries as far as they fit.  Every other word has status 1 and changes nothing
else.  Of the words behind `exit --`, those request the exit that are numerals of 32 bits with their
sign, and the number is the status that is returned and kept; every other word has status 1 and changes
nothing else.  A batch ends with such a request, and its result is the number unless the search path is
unusable; so does a process, and its exit code is then the number modulo 256, which is the low eight
bits of it. -/
theorem numeric_operands_never_wrap (word : Text) :
    (∀ step run : Step, Settled step.before → run ∈ step.runs →
      let before := run.before.state.session
      let after := step.after.state.session
      (run.Calls .history [Builtin.setWord, word] → SizeAsked word before step.status after) ∧
      (run.Calls .exit [Grammar.endOfOptions, word] → ExitAsked word before step.status after)) ∧
    ∀ code, Numeral.IsCode word code →
      (∀ (shell : Shell) (bytes : Bytes) (texts : List Text) (text : Text) (more : List Text)
          (rest : List Bytes), Settled shell →
        BatchRun shell (Lines.split bytes) (texts ++ text :: more) rest (shell.runBatch bytes) →
        let step : Step := { before := shell.afterTexts texts, text, record := true }
        (∃ run ∈ step.runs, run.Calls .exit [Grammar.endOfOptions, word]) →
          more = [] ∧ (step.after.state.session.pathUnusable = false →
            (shell.runBatch bytes).outcome = .ok code)) ∧
      ∀ arguments strings directory world first count process text lines taken,
        ShellProcess.start arguments strings directory world = .running first →
        Progress.run count (.running first) = .running process → process.Takes text lines taken →
        let step := process.executing text taken
        (∃ run ∈ step.runs, run.Calls .exit [Grammar.endOfOptions, word]) →
        step.after.state.session.pathUnusable = false →
          ∃ exit, Progress.run (count + 1) (.running first) = .ended exit ∧
            (exit.code : Int) = code % 256 ∧ exit.code ≤ 255 ∧
            exit.code = (BitVec.ofInt 32 code &&& 255#32).toNat := by
  refine ⟨fun step run hsettled hrun =>
    ⟨fun h => h.sizeAsked hsettled hrun, fun h => h.exitAsked hsettled hrun⟩, fun code hcode => ⟨?_, ?_⟩⟩
  · rintro shell bytes texts text more rest hsettled hbatch step ⟨run, hrun, hcalls⟩
    have hsame : shell.afterTexts (texts ++ [text]) = step.after := List.foldl_append ..
    obtain ⟨-, hafter⟩ :=
      (hcalls.exitAsked (hsettled.afterTexts texts) hrun).accepted code hcode
    obtain ⟨hlast, houtcome⟩ := hbatch.of_exitRequested (by rw [hsame, hafter])
    refine ⟨hlast, fun husable => ?_⟩
    rw [houtcome, hsame, finalStatus_of_pathUnusable_eq_false husable, hafter]
  · rintro arguments strings directory world first count process text lines taken hstart hcount
      htakes step ⟨run, hrun, hcalls⟩ husable
    have hready : process.shell.Ready :=
      ShellProcess.ready_of_run (ShellProcess.ready_of_start hstart).1 hcount
    have hsettled : Settled step.before := (hready.inWorld taken).toSettled
    obtain ⟨-, hafter⟩ := (hcalls.exitAsked hsettled hrun).accepted code hcode
    have hrequested : step.after.state.session.exitRequested = true := by rw [hafter]
    have hcode : (Exit.ofShell step.after).code = Status.exitCode code := by
      change Status.exitCode step.after.state.session.finalStatus = _
      rw [finalStatus_of_pathUnusable_eq_false husable, hafter]
    refine ⟨Exit.ofShell step.after, ?_, ?_, ?_, ?_⟩
    · rw [ShellProcess.run_succ hcount, ShellProcess.step_of_takes htakes]
      exact if_pos hrequested
    · rw [hcode, Status.coe_exitCode]
    · rw [hcode]
      unfold Status.exitCode
      omega
    · rw [hcode, Status.exitCode_eq_and]

/-- A size of more than 64 bits, with a sign, and a status whose low eight bits are all set. -/
theorem numeric_operands_never_wrap_out_of_range :
    let large : Text := "+18446744073709551617".toList
    let resizing : Step := ⟨bare, "history set +18446744073709551617".toList, true⟩
    let exiting : Step := ⟨bare, "exit -- -257".toList, true⟩
    let before := bare.state.session
    let bytes : Bytes := Utf8.encode "exit -- -257\n".toList
    let world : World := { store := .empty, console := { kind := .captured, input := bytes } }
    (¬ ∃ n ≤ 100, Numeral.DenotesSize large n) ∧
      resizing.status = 1 ∧ resizing.after.state.session = { before with lastStatus := 1 } ∧
      Numeral.IsCode "-257".toList (-257) ∧
      exiting.status = -257 ∧ exiting.after.state.session.exitRequested = true ∧
      (bare.runBatch bytes).outcome = .ok (-257) ∧
      ∃ first exit, ShellProcess.start [] [] [] world = .running first ∧
        Progress.run 1 (.running first) = .ended exit ∧ exit.code = 255 := by
  intro large resizing exiting before bytes world
  have hlarge : ¬ ∃ n ≤ 100, Numeral.DenotesSize large n := by
    rintro ⟨n, hn, hdenotes⟩
    have hfits : n ≤ Numeral.maxSize := hn.trans (by decide)
    have hrefused : Numeral.readSize large = .error .tooLarge := by decide +kernel
    cases hrefused.symm.trans (Numeral.readSize_eq_ok_iff.2 ⟨hdenotes, hfits⟩)
  have hcode : Numeral.IsCode "-257".toList (-257) :=
    Numeral.readCode_eq_ok_iff.1 (by decide +kernel)
  obtain ⟨hsizes, -⟩ := numeric_operands_never_wrap large
  obtain ⟨hcodes, hends⟩ := numeric_operands_never_wrap "-257".toList
  obtain ⟨hbatches, hprocesses⟩ := hends (-257) hcode
  have hbare : Settled bare := settled_fresh _ _
  -- The size is read, and refused.
  have hresizes : CommandLine.read resizing.text =
      .command ⟨resizing.text, ["history".toList, Builtin.setWord, large], .empty⟩ := by
    decide +kernel
  have hrefused := ((hsizes resizing resizing hbare List.mem_cons_self).1
    (.intro hresizes (by decide +kernel) rfl)).refused hlarge
  -- The request for the exit is read, and it is all that the batch does.
  let command : CommandLine :=
    ⟨exiting.text, ["exit".toList, Grammar.endOfOptions, "-257".toList], .empty⟩
  have hexits : CommandLine.read exiting.text = .command command := by decide +kernel
  have hwords : (command.expand before.scope).arguments =
      [Builtin.exit.name, Grammar.endOfOptions, "-257".toList] := by decide +kernel
  have hcalls : exiting.Calls .exit [Grammar.endOfOptions, "-257".toList] :=
    .intro hexits hwords rfl
  obtain ⟨hstatus, hafter⟩ :=
    ((hcodes exiting exiting hbare List.mem_cons_self).2 hcalls).accepted _ hcode
  have hrequested : exiting.after.state.session.exitRequested = true := by rw [hafter]
  have hbatch : BatchRun bare (Lines.split bytes) ([] ++ exiting.text :: []) [] (bare.runBatch bytes) := by
    have hlines : Lines.split bytes = [Utf8.encode exiting.text] := by decide +kernel
    unfold runBatch
    rw [hlines]
    exact batchRun_of_exitRequested [] hrequested
  have husable : exiting.after.state.session.pathUnusable = false := by
    rw [hafter]
    rfl
  have houtcome := (hbatches bare bytes [] exiting.text [] [] hbare hbatch
    ⟨exiting, List.mem_cons_self, hcalls⟩).2 husable
  -- The process reads the same line from its input.
  let first : ShellProcess :=
    { shell := fresh { directory := FileStore.pathOf [] } world
      lines := { source := .console }
      feed := .typed false }
  obtain ⟨lines, taken, htakes⟩ : ∃ lines taken, first.Takes exiting.text lines taken :=
    ⟨_, _, _, exiting.text, rfl, Utf8.decode?_eq_some_iff.2 rfl, by decide +kernel⟩
  let last : Step := first.executing exiting.text taken
  have hcalls : last.Calls .exit [Grammar.endOfOptions, "-257".toList] :=
    .intro hexits hwords rfl
  have hlast : Settled last.before := settled_fresh _ taken
  have hafter := (((hcodes last last hlast List.mem_cons_self).2 hcalls).accepted _ hcode).2
  have husable : last.after.state.session.pathUnusable = false := by
    rw [hafter]
    rfl
  obtain ⟨exit, hended, hvalue, -⟩ := hprocesses [] [] [] world first 0 first exiting.text lines taken
    rfl rfl htakes ⟨last, List.mem_cons_self, hcalls⟩ husable
  exact ⟨hlarge, hrefused.1, hrefused.2, hcode, hstatus, hrequested, houtcome, first, exit, rfl, hended,
    by omega⟩

end Shell

end LineShell
