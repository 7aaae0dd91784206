import LineShell.Proofs.CommandOutputs
import LineShell.Proofs.LastRedirection
import LineShell.Proofs.ReplayFaithful

/-!
# Redirected outputs and the console

A line whose standard output is redirected writes nothing to the output of the console, and a line
whose standard error is redirected should write nothing to its diagnostics.  The first holds for
every command (`executeLine_redirected`).  The second holds, too, if the target takes everything
that is written to it: whatever a command cannot do is told there.

There is one exception.  The help of a builtin is written to the standard output, and a failure of
this write is not told by the command.  It ends the line, so the shell reports it on the console
(`executeLine_redirected_refused_help`).
-/

namespace LineShell

open LineShell.Action

/-! ## Opening the targets -/

namespace World

variable {world after : World} {path : Path}

theorem openOutput_eq_ok {mode : Redirection.Mode} {sink : Sink}
    (h : world.openOutput path mode = .ok (sink, after)) :
    after.console = world.console ∧ ∃ number, sink = .file number := by
  unfold openOutput at h
  cases hstore : world.store.openForWriting path mode with
  | error cause =>
    rw [hstore] at h
    cases h
  | ok opened =>
    rw [hstore] at h
    cases h
    exact ⟨rfl, _, rfl⟩

theorem console_openInput {source : Source} (h : world.openInput path = .ok (source, after)) :
    after.console = world.console := by
  unfold openInput at h
  cases hstore : world.store.openForReading path with
  | error cause =>
    rw [hstore] at h
    cases h
  | ok location =>
    rw [hstore] at h
    cases h
    rfl

end World

namespace Redirection

variable {world after : World} {environment : Environment}

theorem console_openInput {path : Option Text} {source found : Source}
    (h : openInput environment path source world = .ok found after) :
    after.console = world.console := by
  cases path with
  | none => rw [(pure_eq_ok.1 h).2]
  | some path => exact World.console_openInput (opening_eq_ok h)

/-- An output keeps its place or goes to an open file. -/
theorem openOutput_eq_ok {target : Option Target} {sink found : Sink}
    (h : openOutput environment target sink world = .ok found after) :
    after.console = world.console ∧
      (target = none ∧ found = sink ∨ ∃ number, found = .file number) := by
  cases target with
  | none =>
    obtain ⟨rfl, rfl⟩ := pure_eq_ok.1 h
    exact ⟨rfl, .inl ⟨rfl, rfl⟩⟩
  | some target =>
    obtain ⟨hconsole, hfile⟩ := World.openOutput_eq_ok (opening_eq_ok h)
    exact ⟨hconsole, .inr hfile⟩

/-- The outputs that have a target are open files afterwards.  The console is not touched. -/
structure Targets.Opens (targets : Targets) (streams opened : Streams) (before after : World) :
    Prop where
  console : after.console = before.console
  stdout : targets.combined.or targets.stdout = none ∧ opened.stdout = streams.stdout ∨
    ∃ number, opened.stdout = .file number
  stderr : targets.combined.or targets.stderr = none ∧ opened.stderr = streams.stderr ∨
    ∃ number, opened.stderr = .file number

theorem Targets.opens_of_openAll {targets : Targets} {streams opened : Streams}
    (h : targets.openAll environment streams world = .ok opened after) :
    targets.Opens streams opened world after := by
  obtain ⟨stdin, afterIn, hin, h⟩ := bind_eq_ok.1 h
  obtain ⟨stdout, afterOut, hout, h⟩ := bind_eq_ok.1 h
  obtain ⟨stderr, afterErr, herr, h⟩ := bind_eq_ok.1 h
  obtain ⟨hconsoleOut, hstdout⟩ := openOutput_eq_ok hout
  obtain ⟨hconsoleErr, hstderr⟩ := openOutput_eq_ok herr
  have hconsole : afterErr.console = world.console := by
    rw [hconsoleErr, hconsoleOut, console_openInput hin]
  cases hcombined : targets.combined with
  | none =>
    rw [hcombined] at h
    obtain ⟨rfl, rfl⟩ := pure_eq_ok.1 h
    refine ⟨hconsole, ?_, ?_⟩
    · rwa [hcombined]
    · rwa [hcombined]
  | some target =>
    rw [hcombined] at h
    obtain ⟨sink, afterBoth, hboth, h⟩ := bind_eq_ok.1 h
    obtain ⟨rfl, rfl⟩ := pure_eq_ok.1 h
    obtain ⟨hconsoleBoth, hnone | hfile⟩ := openOutput_eq_ok hboth
    · cases hnone.1
    · exact ⟨hconsoleBoth.trans hconsole, .inr hfile, .inr hfile⟩

section Console

variable {targets : Targets} {opened : Streams}

/-- With a target for standard output nothing goes to the output of the console. -/
theorem Targets.Opens.ne_output (h : targets.Opens .ofConsole opened world after)
    (htarget : targets.combined.or targets.stdout ≠ none) :
    opened.stdout ≠ .output ∧ opened.stderr ≠ .output := by
  obtain ⟨number, hfile⟩ := h.stdout.resolve_left fun hnone => htarget hnone.1
  rw [hfile]
  refine ⟨nofun, ?_⟩
  rcases h.stderr with ⟨-, hconsole⟩ | ⟨other, hother⟩
  · rw [hconsole]
    exact nofun
  · rw [hother]
    exact nofun

/-- With a target for standard error nothing goes to the diagnostics of the console. -/
theorem Targets.Opens.ne_diagnostics (h : targets.Opens .ofConsole opened world after)
    (htarget : targets.combined.or targets.stderr ≠ none) :
    opened.stdout ≠ .diagnostics ∧ opened.stderr ≠ .diagnostics := by
  obtain ⟨number, hfile⟩ := h.stderr.resolve_left fun hnone => htarget hnone.1
  rw [hfile]
  refine ⟨?_, nofun⟩
  rcases h.stdout with ⟨-, hconsole⟩ | ⟨other, hother⟩
  · rw [hconsole]
    exact nofun
  · rw [hother]
    exact nofun

end Console

/-! ## Lines that redirect an output -/

theorem lastOf_ne_none {p : Operator → Bool} {occurrences : List (Occurrence Char)}
    {o : Occurrence Char} (ho : o ∈ occurrences) (hp : p o.operator = true) :
    lastOf p occurrences ≠ none := by
  obtain ⟨position, hposition⟩ := List.getElem?_of_mem ho
  have hmem : (o, position) ∈ occurrences.zipIdx := List.mk_mem_zipIdx_iff_getElem?.2 hposition
  rw [lastOf, Ne, List.getLast?_eq_none_iff]
  exact List.ne_nil_of_mem (List.mem_filter.2 ⟨hmem, hp⟩)

end Redirection

namespace CommandLine

open Redirection

variable {line : Text} {command : CommandLine}

/-- One of the operators of the line has the property. -/
def Redirects (p : Operator → Bool) (line : Text) : Prop :=
  ∃ o ∈ (scan id true (Text.significant line)).occurrences, p o.operator = true

instance (p : Operator → Bool) (line : Text) : Decidable (Redirects p line) :=
  inferInstanceAs (Decidable (∃ o ∈ _, _))

theorem targets_of_read (h : read line = .command command) :
    command.targets = lastTargets (scan id true (Text.significant line)).occurrences := by
  obtain ⟨-, hparse⟩ := read_eq_command_iff.1 h
  obtain ⟨parsed, hparsed, -, rfl⟩ := parse_eq_ok_iff.1 hparse
  obtain ⟨-, rfl⟩ := Redirection.parse_eq_ok_iff.1 hparsed
  exact foldl_set_eq_lastTargets _

variable {scope : Scope}

/-- Expanding a line leaves none of its outputs without a target. -/
theorem target_of_redirectsOutput (h : read line = .command command)
    (hline : Redirects Operator.redirectsOutput line) :
    (command.expand scope).targets.combined.or (command.expand scope).targets.stdout ≠ none := by
  obtain ⟨o, ho, hp⟩ := hline
  unfold expand Targets.mapPaths
  dsimp only
  rw [← Option.map_or, targets_of_read h, combined_or_stdout_lastTargets, Option.map_map, Ne,
    Option.map_eq_none_iff]
  exact lastOf_ne_none ho hp

theorem target_of_redirectsError (h : read line = .command command)
    (hline : Redirects Operator.redirectsError line) :
    (command.expand scope).targets.combined.or (command.expand scope).targets.stderr ≠ none := by
  obtain ⟨o, ho, hp⟩ := hline
  unfold expand Targets.mapPaths
  dsimp only
  rw [← Option.map_or, targets_of_read h, combined_or_stderr_lastTargets, Option.map_map, Ne,
    Option.map_eq_none_iff]
  exact lastOf_ne_none ho hp

end CommandLine

namespace Shell

open Redirection Command

variable {factories : List Factory} {state after : State} {line : Text} {record : Bool}
  {command : CommandLine}

/-! ## The console after a line -/

theorem console_runLine_of_ok {status : Status} (hread : CommandLine.read line = .command command)
    (h : runCommand factories command record state = .ok status after) :
    (runLine factories state line record).state.world.console = after.world.console := by
  unfold runLine
  rw [hread]
  dsimp only
  rw [h]
  rfl

/-- A line that ends with an error is reported on the console. -/
theorem console_runLine_of_error {error : ShellError}
    (hread : CommandLine.read line = .command command)
    (h : runCommand factories command record state = .error error after) :
    (runLine factories state line record).state.world.console =
      { after.world.console with
        diagnostics :=
          after.world.console.diagnostics.append (ShellError.report error.message) } := by
  unfold runLine
  rw [hread]
  dsimp only
  rw [h]
  dsimp only
  split <;> rfl

variable {name : Text} {arguments : List Text} {streams : Streams} {opened : World}

/-! ## A session among devices -/

/-- The directory of the two devices. -/
def devices : Location := [Path.ofText "dev".toList]

/-- A fresh session in a store with the two devices. -/
def amongDevices : Shell :=
  fresh { directory := [Path.slash] }
    { store := ((FileStore.empty.makeDirectories devices).put
        (Path.ofText "full".toList :: devices) .fullDevice).put
          (Path.ofText "null".toList :: devices) .nullDevice
      console := { kind := .captured } }

/-- The world of this session after the two devices were opened for writing. -/
def devicesOpened : World :=
  { amongDevices.state.world with
    openFiles :=
      [{ location := Path.ofText "full".toList :: devices, writing := true },
        { location := Path.ofText "null".toList :: devices, writing := true }] }

theorem accepts_devicesOpened : devicesOpened.Accepts (.file 1) :=
  World.accepts_iff.2 fun number hsink => by
    cases hsink
    decide +kernel

/-! ## Redirected lines -/

/-- What a command on opened targets leaves of the console. -/
theorem console_runLine_redirected {line : Text}
    (hread : CommandLine.read line = .command command)
    (harguments : (command.expand state.session.scope).arguments = name :: arguments)
    (hopen : (command.expand state.session.scope).targets.openAll state.session.environment
      .ofConsole state.world = .ok streams opened) :
    let before := state.world.console
    let after := (runLine Factory.default state line record).state.world.console
    (CommandLine.Redirects Operator.redirectsOutput line → after.output = before.output) ∧
      (CommandLine.Redirects Operator.redirectsError line → opened.Accepts streams.stderr →
        ((∀ cause, ¬ HelpRefused (name :: arguments) streams.stdout opened cause) →
          after.diagnostics = before.diagnostics) ∧
        ∀ cause, HelpRefused (name :: arguments) streams.stdout opened cause →
          after.diagnostics =
            before.diagnostics.append (ShellError.report (ShellError.stream cause).message)) := by
  intro before after
  let started : State := ⟨startingSession command record state.session, opened⟩
  have hrun : runCommand Factory.default command record state =
      dispatch Factory.default name arguments streams started :=
    runCommand_of_openAll harguments hopen
  have hopens := Targets.opens_of_openAll hopen
  have hwrites := writesTo_dispatch name arguments streams
  refine ⟨?_, ?_⟩
  · intro hline
    obtain ⟨hout, herr⟩ :=
      hopens.ne_output (CommandLine.target_of_redirectsOutput hread hline)
    change (runLine Factory.default state line record).state.world.console.output = _
    cases hdispatch : dispatch Factory.default name arguments streams started with
    | ok status last =>
      rw [console_runLine_of_ok hread (hrun.trans hdispatch),
        (hwrites.ok hdispatch).output hout herr, hopens.console]
    | error error last =>
      rw [console_runLine_of_error hread (hrun.trans hdispatch)]
      dsimp only
      rw [(hwrites.error hdispatch).output hout herr, hopens.console]
  · intro hline haccepts
    obtain ⟨hout, herr⟩ :=
      hopens.ne_diagnostics (CommandLine.target_of_redirectsError hread hline)
    change (_ → (runLine Factory.default state line record).state.world.console.diagnostics = _) ∧
      ∀ cause, _ → (runLine Factory.default state line record).state.world.console.diagnostics = _
    refine ⟨fun hshown => ?_, fun cause hrefused => ?_⟩
    · cases hdispatch : dispatch Factory.default name arguments streams started with
      | ok status last =>
        rw [console_runLine_of_ok hread (hrun.trans hdispatch),
          (hwrites.ok hdispatch).diagnostics hout herr, hopens.console]
      | error error last =>
        obtain ⟨cause, hrefused, -⟩ := (dispatch_eq_error_iff haccepts).1 hdispatch
        exact absurd hrefused (hshown cause)
    · have hdispatch : dispatch Factory.default name arguments streams started =
          .error (.stream cause) started :=
        (dispatch_eq_error_iff haccepts).2 ⟨cause, hrefused, rfl, rfl⟩
      rw [console_runLine_of_error hread (hrun.trans hdispatch)]
      dsimp only
      rw [hopens.console]

/-- A line whose targets are open and that starts no replay leaves the output of the console alone if
it redirects standard output.  If it redirects standard error, and the target takes everything, it
leaves the diagnostics alone as well, unless it asks for a help text that its standard output does
not take.  Then the cause is reported on the console. -/
theorem executeLine_redirected {shell : Shell} {line : Text}
    (hfactories : shell.factories = Factory.default)
    (hread : CommandLine.read line = .command command)
    (hreplay : (runLine shell.factories shell.state line record).replay = none)
    (hopen : (command.expand shell.state.session.scope).arguments ≠ [] →
      (command.expand shell.state.session.scope).targets.openAll shell.state.session.environment
        .ofConsole shell.state.world = .ok streams opened) :
    let words := (command.expand shell.state.session.scope).arguments
    let before := shell.state.world.console
    let after := (shell.executeLine line record).shell.state.world.console
    (CommandLine.Redirects Operator.redirectsOutput line → after.output = before.output) ∧
      (CommandLine.Redirects Operator.redirectsError line → opened.Accepts streams.stderr →
        ((∀ cause, ¬ HelpRefused words streams.stdout opened cause) →
          after.diagnostics = before.diagnostics) ∧
        ∀ cause, HelpRefused words streams.stdout opened cause →
          after.diagnostics =
            before.diagnostics.append (ShellError.report (ShellError.stream cause).message)) := by
  intro words before after
  have hdone : after = (runLine Factory.default shell.state line record).state.world.console := by
    rw [← hfactories]
    exact congrArg (fun done => done.shell.state.world.console)
      (executeLine_of_replay_eq_none hreplay)
  rw [hdone]
  cases hwords : words with
  | nil =>
    -- A line that expands to nothing opens nothing and writes nothing.
    have hrun : runCommand Factory.default command record shell.state = .ok 0 shell.state :=
      runCommand_of_arguments_eq_nil hwords
    rw [console_runLine_of_ok hread hrun]
    exact ⟨fun _ => rfl, fun _ _ => ⟨fun _ => rfl, fun _ ⟨_, _, hnil, _⟩ => nomatch hnil⟩⟩
  | cons name arguments =>
    refine console_runLine_redirected hread hwords (hopen fun hnil => ?_)
    cases hwords.symm.trans hnil

/-- The directory that `pwd` cannot show and the message about that leave nothing on the console. -/
theorem executeLine_redirected_full_device :
    let line : Text := "pwd > /dev/full 2> /dev/null".toList
    let before := amongDevices.state.world.console
    let after := (amongDevices.executeLine line true).shell.state.world.console
    after.output = before.output ∧ after.diagnostics = before.diagnostics := by
  intro line before after
  let command : CommandLine :=
    { text := line
      words := ["pwd".toList]
      targets :=
        { stdout := some ⟨"/dev/full".toList, .truncate⟩
          stderr := some ⟨"/dev/null".toList, .truncate⟩ } }
  have hread : CommandLine.read line = .command command := by decide +kernel
  have hreplay :
      (runLine amongDevices.factories amongDevices.state line true).replay = none :=
    (settled_fresh _ _).replay_eq_none true hread (by decide +kernel)
  have hopen : (command.expand amongDevices.state.session.scope).targets.openAll
      amongDevices.state.session.environment .ofConsole amongDevices.state.world =
        .ok ⟨.console, .file 0, .file 1⟩ devicesOpened := by
    decide +kernel
  obtain ⟨houtput, hdiagnostics⟩ := executeLine_redirected rfl hread hreplay fun _ => hopen
  refine ⟨houtput (by decide +kernel), ?_⟩
  refine (hdiagnostics (by decide +kernel) accepts_devicesOpened).1 ?_
  -- Without arguments `pwd` is not asked for its help.
  rintro cause ⟨builtin, rest, hwords, hhelp, -⟩
  have hpwd : (command.expand amongDevices.state.session.scope).arguments = [Builtin.pwd.name] := by
    decide +kernel
  obtain ⟨hname, rfl⟩ := List.cons.inj (hpwd.symm.trans hwords)
  cases Builtin.name_injective hname
  have hcall : Builtin.pwd.read [] = .ok (some .pwd) := by decide +kernel
  cases hcall.symm.trans hhelp

/-- The help of `cd` does not fit on the full device, and the shell says so on its console although
the standard error of the line is redirected. -/
theorem executeLine_redirected_refused_help :
    let line : Text := "cd help > /dev/full 2> /dev/null".toList
    let before := amongDevices.state.world.console
    let after := (amongDevices.executeLine line true).shell.state.world.console
    Reachable amongDevices ∧ ∃ (command : CommandLine) (streams : Streams) (opened : World),
      CommandLine.read line = .command command ∧
        (runLine amongDevices.factories amongDevices.state line true).replay = none ∧
        (command.expand amongDevices.state.session.scope).targets.openAll
          amongDevices.state.session.environment .ofConsole amongDevices.state.world =
            .ok streams opened ∧
        CommandLine.Redirects Operator.redirectsError line ∧ opened.Accepts streams.stderr ∧
        before.diagnostics.bytes = [] ∧
        after.diagnostics.bytes =
          Utf8.encode "tinysh: io error: No space left on device (os error 28)\n".toList := by
  intro line before after
  let command : CommandLine :=
    { text := line
      words := ["cd".toList, "help".toList]
      targets :=
        { stdout := some ⟨"/dev/full".toList, .truncate⟩
          stderr := some ⟨"/dev/null".toList, .truncate⟩ } }
  have hread : CommandLine.read line = .command command := by decide +kernel
  refine ⟨⟨_, _, [], rfl⟩, command, ⟨.console, .file 0, .file 1⟩, devicesOpened, hread, ?_, ?_, ?_,
    accepts_devicesOpened, rfl, ?_⟩
  · exact (settled_fresh _ _).replay_eq_none true hread (by decide +kernel)
  · decide +kernel
  · decide +kernel
  · decide +kernel

end Shell

end LineShell
