import LineShell.Proofs.Runs
import LineShell.ShellProcess

/-!
# Runs of a shell process

A process takes one line after another from its source and executes it, until the lines end, the exit
is requested, or a line cannot be taken.  `ShellProcess.Ends` is this course of events, with the steps
that were executed and the way in which it ended; a process that has come to its end has taken such a
course (`ShellProcess.exists_ends_of_run`).

Between two steps the world changes without the shell: a prompt is written and a line is read.  So the
steps of a process follow each other in a weaker sense than those of requests (`Shell.Follows`).
-/

namespace LineShell

/-! ## Steps with a changing world -/

namespace Shell

/-- The same shell in another world. -/
def inWorld (shell : Shell) (world : World) : Shell :=
  { shell with state := { shell.state with world } }

/-- The steps follow each other from one shell to another, and the world may change in between. -/
inductive Follows : Shell → List Step → Shell → Prop
  | done (shell : Shell) (world : World) : Follows shell [] (shell.inWorld world)
  | step {shell last : Shell} {steps : List Step} (world : World) (text : Text) (record : Bool)
      (rest : Follows (Step.after ⟨shell.inWorld world, text, record⟩) steps last) :
      Follows shell (⟨shell.inWorld world, text, record⟩ :: steps) last

theorem Leads.follows {first last : Shell} {steps : List Step} (h : Leads first steps last) :
    Follows first steps last := by
  induction h with
  | nil shell => exact .done shell shell.state.world
  | cons step _ ih => exact .step step.before.state.world step.text step.record ih

end Shell

/-! ## The start of a process -/

namespace ShellProcess

open Shell (Step)

/-- The shell of a process before it opens the lines that it will execute. -/
def unopened (strings : List Text) (directory : Location) (history : History) (world : World) :
    Shell :=
  { state :=
      { session :=
          { environment :=
              { exported := Variables.ofStrings strings, directory := FileStore.pathOf directory }
            history }
        world } }

/-- Lines are those of the console, or those of a script that is open from now on. -/
theorem openLines_eq_ok {script : Option Text} {typed : Feed} {directory : Location}
    {shell : Shell} {process : ShellProcess}
    (h : openLines script typed directory shell = .ok process) :
    process = { shell, lines := { source := .console }, feed := typed } ∨
      ∃ location, process =
        { shell := shell.inWorld (shell.state.world.addOpenFile { location }).2
          lines := { source := .file shell.state.world.openFiles.length }
          feed := .script } := by
  unfold openLines at h
  cases script with
  | none =>
    cases h
    exact .inl rfl
  | some path =>
    dsimp only at h
    cases hopen : (shell.state.world.store.openForReadingFrom directory
        (Path.ofText path)).mapError (StartupError.script path) with
    | error error =>
      rw [hopen] at h
      cases h
    | ok location =>
      rw [hopen] at h
      cases h
      exact .inr ⟨location, rfl⟩

theorem setUp_eq_ok {given : Given} {strings : List Text} {directory : Location} {world : World}
    {process : ShellProcess} (h : setUp given strings directory world = .ok process) :
    ∃ history : History, (history = .new ∨ ∃ size, History.new.resize size = .ok history) ∧
      openLines given.operands.head? (.ofInput (Variables.inherited strings)) directory
        (unopened strings directory history world) = .ok process := by
  unfold setUp at h
  cases hsize : Options.sizeOf? given with
  | none =>
    rw [hsize] at h
    exact ⟨.new, .inl rfl, h⟩
  | some size =>
    rw [hsize] at h
    dsimp only at h
    cases hresize : History.new.resize size with
    | error fault =>
      rw [hresize] at h
      cases h
    | ok history =>
      rw [hresize] at h
      exact ⟨history, .inr ⟨size, hresize⟩, h⟩

theorem start_eq_running {arguments strings : List Text} {directory : Location} {world : World}
    {process : ShellProcess} (h : start arguments strings directory world = .running process) :
    ∃ given, setUp given strings directory world = .ok process := by
  unfold start at h
  split at h
  · cases h
  · cases h
  · next given _ =>
    split at h
    · cases h
    · next hsetUp =>
      cases h
      exact ⟨given, hsetUp⟩

/-! ## The course of a process -/

/-- The world when a line is asked for. -/
def invited (process : ShellProcess) : World :=
  process.shell.state.world.tryWrite .output (Utf8.encode process.feed.invitation)

/-- The source gives a line, by which `text` is meant. -/
def Takes (process : ShellProcess) (text : Text) (lines : LineSource) (world : World) : Prop :=
  ∃ line written, process.lines.next process.invited = .ok (some line, lines, world) ∧
    Utf8.decode? line = some written ∧ process.feed.meant written = some text

/-- The execution of a line that was taken. -/
def executing (process : ShellProcess) (text : Text) (world : World) : Step :=
  { before := process.shell.inWorld world, text, record := true }

/-- How the course of a process ended. -/
inductive Ending where
  /-- The lines ended, or the exit was requested. -/
  | finished (shell : Shell)
  /-- A line could not be read. -/
  | failed (cause : IoError) (world : World)
  /-- The backspaces of a line cut a character in two. -/
  | brokenDown (world : World)

/-- What the process leaves behind. -/
def Ending.exit (feed : Feed) : Ending → Exit
  | finished shell => Exit.ofShell shell
  | failed cause world => Exit.ofError (feed.failure cause) world
  | brokenDown world => Exit.ofCutCharacter world

/-- The process executes the steps and comes to its end. -/
inductive Ends : ShellProcess → List Step → Ending → Prop
  | endOfLines {process : ShellProcess} {lines : LineSource} {world : World}
      (reads : process.lines.next process.invited = .ok (none, lines, world)) :
      Ends process [] (.finished (process.shell.inWorld world))
  | unreadable {process : ShellProcess} {cause : IoError}
      (reads : process.lines.next process.invited = .error cause) :
      Ends process [] (.failed cause process.invited)
  | notUtf8 {process : ShellProcess} {line : Bytes} {lines : LineSource} {world : World}
      (reads : process.lines.next process.invited = .ok (some line, lines, world))
      (undecodable : Utf8.decode? line = none) : Ends process [] (.failed .notUtf8 world)
  | cutCharacter {process : ShellProcess} {line : Bytes} {written : Text} {lines : LineSource}
      {world : World} (reads : process.lines.next process.invited = .ok (some line, lines, world))
      (decodes : Utf8.decode? line = some written) (cut : process.feed.meant written = none) :
      Ends process [] (.brokenDown world)
  | exitRequested {process : ShellProcess} {text : Text} {lines : LineSource} {world : World}
      (takes : process.Takes text lines world)
      (requested : (process.executing text world).after.state.session.exitRequested = true) :
      Ends process [process.executing text world]
        (.finished (process.executing text world).after)
  | line {process : ShellProcess} {text : Text} {lines : LineSource} {world : World}
      {steps : List Step} {ending : Ending} (takes : process.Takes text lines world)
      (goesOn : (process.executing text world).after.state.session.exitRequested = false)
      (rest : Ends { process with shell := (process.executing text world).after, lines } steps
        ending) :
      Ends process (process.executing text world :: steps) ending

variable {process : ShellProcess} {steps : List Step}

/-- A step in the words of this module. -/
theorem step_eq (process : ShellProcess) :
    process.step =
      match process.lines.next process.invited with
      | .error cause => .ended ((Ending.failed cause process.invited).exit process.feed)
      | .ok (none, _, world) =>
        .ended ((Ending.finished (process.shell.inWorld world)).exit process.feed)
      | .ok (some line, lines, world) =>
        match Utf8.decode? line with
        | none => .ended ((Ending.failed .notUtf8 world).exit process.feed)
        | some written =>
          match process.feed.meant written with
          | none => .ended ((Ending.brokenDown world).exit process.feed)
          | some text =>
            let done := (process.executing text world).after
            if done.state.session.exitRequested then
              .ended ((Ending.finished done).exit process.feed)
            else .running { process with shell := done, lines } := rfl

theorem step_of_takes {text : Text} {lines : LineSource} {world : World}
    (h : process.Takes text lines world) :
    process.step =
      let done := (process.executing text world).after
      if done.state.session.exitRequested then .ended ((Ending.finished done).exit process.feed)
      else .running { process with shell := done, lines } := by
  obtain ⟨line, written, hnext, hdecode, hmeant⟩ := h
  simp only [step_eq, hnext, hdecode, hmeant]

/-- The next line decides how the course goes on. -/
theorem Ends.of_next {ending : Ending} (h : process.Ends steps ending) :
    match process.lines.next process.invited with
    | .error cause => steps = [] ∧ ending = .failed cause process.invited
    | .ok (none, _, world) => steps = [] ∧ ending = .finished (process.shell.inWorld world)
    | .ok (some bytes, lines, world) =>
      match Utf8.decode? bytes with
      | none => steps = [] ∧ ending = .failed .notUtf8 world
      | some written =>
        match process.feed.meant written with
        | none => steps = [] ∧ ending = .brokenDown world
        | some text =>
          let step := process.executing text world
          if step.after.state.session.exitRequested = true then
            steps = [step] ∧ ending = .finished step.after
          else
            ∃ rest, steps = step :: rest ∧
              Ends { process with shell := step.after, lines } rest ending := by
  cases h with
  | endOfLines reads | unreadable reads => simp only [reads, and_self]
  | notUtf8 reads undecodable => simp only [reads, undecodable, and_self]
  | cutCharacter reads decodes cut => simp only [reads, decodes, cut, and_self]
  | exitRequested takes requested =>
    obtain ⟨_, _, reads, decodes, meant⟩ := takes
    simp only [reads, decodes, meant, requested, if_true, and_self]
  | line takes goesOn rest =>
    obtain ⟨_, _, reads, decodes, meant⟩ := takes
    simp only [reads, decodes, meant, goesOn]
    exact ⟨_, rfl, rest⟩

/-- A process has one course. -/
theorem Ends.unique {steps' : List Step} {ending ending' : Ending} (h : process.Ends steps ending)
    (h' : process.Ends steps' ending') : steps = steps' ∧ ending = ending' := by
  induction h generalizing steps' with
  | endOfLines reads | unreadable reads =>
    have hnext := h'.of_next
    simp only [reads] at hnext
    exact ⟨hnext.1.symm, hnext.2.symm⟩
  | notUtf8 reads undecodable =>
    have hnext := h'.of_next
    simp only [reads, undecodable] at hnext
    exact ⟨hnext.1.symm, hnext.2.symm⟩
  | cutCharacter reads decodes cut =>
    have hnext := h'.of_next
    simp only [reads, decodes, cut] at hnext
    exact ⟨hnext.1.symm, hnext.2.symm⟩
  | exitRequested takes requested =>
    obtain ⟨_, _, reads, decodes, meant⟩ := takes
    have hnext := h'.of_next
    simp only [reads, decodes, meant, requested, if_true] at hnext
    exact ⟨hnext.1.symm, hnext.2.symm⟩
  | line takes goesOn _ ih =>
    obtain ⟨_, _, reads, decodes, meant⟩ := takes
    have hnext := h'.of_next
    simp only [reads, decodes, meant, goesOn] at hnext
    obtain ⟨rest, rfl, hrest⟩ := hnext
    obtain ⟨rfl, rfl⟩ := ih hrest
    exact ⟨rfl, rfl⟩

/-- A step takes a line and executes it, or ends the process. -/
theorem takes_or_ends (process : ShellProcess) :
    (∃ text lines world, process.Takes text lines world) ∨
      ∃ ending, process.Ends [] ending ∧ process.step = .ended (ending.exit process.feed) := by
  rcases hnext : process.lines.next process.invited with cause | ⟨_ | line, lines, world⟩
  · exact .inr ⟨_, .unreadable hnext, by simp only [step_eq, hnext]⟩
  · exact .inr ⟨_, .endOfLines hnext, by simp only [step_eq, hnext]⟩
  cases hdecode : Utf8.decode? line with
  | none => exact .inr ⟨_, .notUtf8 hnext hdecode, by simp only [step_eq, hnext, hdecode]⟩
  | some written =>
    cases hmeant : process.feed.meant written with
    | none =>
      exact .inr ⟨_, .cutCharacter hnext hdecode hmeant,
        by simp only [step_eq, hnext, hdecode, hmeant]⟩
    | some text => exact .inl ⟨text, lines, world, line, written, hnext, hdecode, hmeant⟩

theorem run_ended (count : Nat) (exit : Exit) : Progress.run count (.ended exit) = .ended exit := by
  cases count <;> rfl

theorem run_succ {count : Nat} {progress : Progress}
    (h : progress.run count = .running process) : progress.run (count + 1) = process.step := by
  induction count generalizing progress with
  | zero =>
    cases h
    rfl
  | succ count ih =>
    cases progress with
    | ended exit => cases h
    | running first =>
      have hstep : first.step.run count = .running process := h
      exact ih hstep

/-- A process that has come to an end got there step by step. -/
theorem exists_ends_of_run {count : Nat} {exit : Exit}
    (h : Progress.run count (.running process) = .ended exit) :
    ∃ steps ending, process.Ends steps ending ∧ exit = ending.exit process.feed := by
  induction count generalizing process with
  | zero => cases h
  | succ count ih =>
    have hstep : process.step.run count = .ended exit := h
    rcases process.takes_or_ends with ⟨text, lines, world, htakes⟩ | ⟨ending, hends, hended⟩
    · rw [step_of_takes htakes] at hstep
      dsimp only at hstep
      split at hstep
      · next hrequested =>
        rw [run_ended] at hstep
        cases hstep
        exact ⟨_, _, .exitRequested htakes hrequested, rfl⟩
      · next hgoesOn =>
        obtain ⟨steps, ending, hrest, hexit⟩ := ih hstep
        exact ⟨_, ending, .line htakes (Bool.eq_false_iff.2 hgoesOn) hrest, hexit⟩
    · rw [hended, run_ended] at hstep
      cases hstep
      exact ⟨[], ending, hends, rfl⟩

/-- A process that comes to its end does so in one step for each line and perhaps one more. -/
theorem Ends.run {ending : Ending} (h : process.Ends steps ending) :
    Progress.run (steps.length + 1) (.running process) = .ended (ending.exit process.feed) := by
  induction h with
  | @endOfLines process _ _ reads | @unreadable process _ reads =>
    change process.step = _
    simp only [step_eq, reads]
  | @notUtf8 process _ _ _ reads undecodable =>
    change process.step = _
    simp only [step_eq, reads, undecodable]
  | @cutCharacter process _ _ _ _ reads decodes cut =>
    change process.step = _
    simp only [step_eq, reads, decodes, cut]
  | @exitRequested process _ _ _ takes requested =>
    change process.step.run 1 = _
    rw [step_of_takes takes]
    dsimp only
    rw [if_pos requested, run_ended]
  | @line process _ _ _ steps _ takes goesOn _ ih =>
    change process.step.run (steps.length + 1) = _
    rw [step_of_takes takes]
    dsimp only
    rw [if_neg (by simp [goesOn])]
    exact ih

theorem Ends.follows {shell : Shell} (h : process.Ends steps (.finished shell)) :
    Shell.Follows process.shell steps shell := by
  generalize hending : Ending.finished shell = ending at h
  induction h with
  | endOfLines =>
    cases hending
    exact .done _ _
  | unreadable | notUtf8 | cutCharacter => cases hending
  | exitRequested =>
    cases hending
    exact .step _ _ true (.done _ _)
  | line _ _ _ ih => exact .step _ _ true (ih hending)

/-- The lines of a script are taken as they are. -/
theorem Ends.ne_brokenDown {ending : Ending} (h : process.Ends steps ending)
    (hfeed : process.feed = .script) (world : World) : ending ≠ .brokenDown world := by
  induction h with
  | cutCharacter _ _ cut =>
    rw [hfeed] at cut
    cases cut
  | line _ _ _ ih => exact ih hfeed
  | endOfLines | unreadable | notUtf8 | exitRequested => nofun

end ShellProcess

end LineShell
