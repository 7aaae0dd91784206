import LineShell.Proofs.AssignedNames
import LineShell.Proofs.Runs

/-!
# What a command leaves alone

Every command has its own part of the session: `cd` the directory and the variable that shows it,
`export` and `local` the variable that they name, `history` the history, and `exit` the request to
end.  `Call.Touches` states this for each form of a call, by what may be different afterwards;
whatever is not mentioned there is the same.  Commands that are not found, programs, help texts and
refused arguments have no part at all.

Two things come on top of it for every line.  Its status is kept, and if it calls no builtin it is
recorded.  A line that starts a replay is left out, because the entry that it replays is a command
with a part of its own.

No command takes anything back.  A variable that has a value goes on having one, and a flag that is
raised stays raised (`Session.Grows`), over runs of any length and through replays.
-/

namespace LineShell

/-! ## Assigning one key -/

/-- The later map is the earlier one with a value for the key: where the key stands if it is there
already, and at the end otherwise. -/
structure OrderedMap.AssignedAt {κ ν : Type} [DecidableEq κ] (key : κ)
    (before after : OrderedMap κ ν) : Prop where
  others : ∀ other, other ≠ key → after.get? other = before.get? other
  bound : (after.get? key).isSome = true
  order : after.keys = if key ∈ before.keys then before.keys else before.keys ++ [key]

namespace OrderedMap

variable {κ ν : Type} [DecidableEq κ] {key : κ} {before after : OrderedMap κ ν}

theorem assignedAt_set (m : OrderedMap κ ν) (key : κ) (value : ν) :
    AssignedAt key m (m.set key value) where
  others _ hother := get?_set_of_ne hother.symm
  bound := by rw [get?_set_self, Option.isSome_some]
  order := keys_set m key value

/-- No key loses its value. -/
theorem AssignedAt.isSome_get? (h : AssignedAt key before after) {other : κ}
    (hbound : (before.get? other).isSome = true) : (after.get? other).isSome = true := by
  by_cases hkey : other = key
  · rw [hkey]
    exact h.bound
  · rw [h.others other hkey]
    exact hbound

end OrderedMap

/-! ## The part of a call -/

namespace Builtin

variable {assignment name value : Text}

/-- The name in front of the equals sign of an assignment, all of it if there is no such sign. -/
def assignedName (assignment : Text) : Text := assignment.takeWhile (· != '=')

theorem assignedName_append (h : '=' ∉ name) (value : Text) :
    assignedName (name ++ '=' :: value) = name := Text.takeWhile_bne_append h

theorem assignedName_of_not_mem (h : '=' ∉ assignment) : assignedName assignment = assignment :=
  List.takeWhile_eq_self_iff.2 fun _ hc => bne_iff_ne.2 (ne_of_mem_of_not_mem hc h)

theorem assignedName_of_exportAssignment (h : exportAssignment assignment = .ok (name, value)) :
    assignedName assignment = name := by
  obtain ⟨hvalid, rfl⟩ := exportAssignment_eq_ok_iff.1 h
  exact assignedName_append (equals_not_mem_of_isValidName hvalid) value

theorem assignedName_of_localAssignment (h : localAssignment assignment = .ok (name, value)) :
    assignedName assignment = name := by
  obtain ⟨hvalid, rfl | ⟨rfl, -⟩⟩ := localAssignment_eq_ok_iff.1 h
  · exact assignedName_append (equals_not_mem_of_isValidName hvalid) value
  · exact assignedName_of_not_mem (equals_not_mem_of_isValidName hvalid)

end Builtin

open Builtin in
/-- The sessions that a call may leave behind: the earlier one itself, or that one with another value
in the part that belongs to the call. -/
inductive Call.Touches (before : Session) : Call → Session → Prop where
  | nothing (call : Call) : Touches before call before
  | cd {target : Text} {exported : Variables} {directory : Path}
      (shown : before.environment.exported.AssignedAt directoryVariable exported) :
      Touches before (.cd target) { before with environment := { exported, directory } }
  | exportVariable {assignment : Text} {exported : Variables} {raised : Bool}
      (assigned : before.environment.exported.AssignedAt (assignedName assignment) exported)
      (search : raised = true → assignedName assignment = Program.searchVariable) :
      Touches before (.exportVariable assignment)
        { before with
          environment := { before.environment with exported }
          pathUnusable := before.pathUnusable || raised }
  | localVariable {assignment : Text} {locals : Variables}
      (assigned : before.locals.AssignedAt (assignedName assignment) locals) :
      Touches before (.localVariable assignment) { before with locals }
  | resize {operand : Text} {history : History}
      (kept : history.entries <:+ before.history.entries) :
      Touches before (.history [setWord, operand]) { before with history }
  | exit {code : Option Text} : Touches before (.exit code) { before with exitRequested := true }

variable {state : State} {call : Call} {status : Status} {before after : Session}

/-- A call keeps to its part or queues an entry and does nothing else. -/
theorem Call.Effect.touches (h : Effect state call status after) :
    Touches state.session call after ∨
      ∃ entry, after = { state.session with pendingReplay := some entry } := by
  cases h with
  | cd _ => exact .inl (.cd (OrderedMap.assignedAt_set _ _ _))
  | @exportVariable assignment name value valid =>
    have hname := Builtin.assignedName_of_exportAssignment valid
    refine .inl (.exportVariable (hname ▸ OrderedMap.assignedAt_set _ _ _) fun hraised => ?_)
    unfold Builtin.breaksSearchPath at hraised
    rw [Bool.and_eq_true, beq_iff_eq] at hraised
    exact hname.trans hraised.1
  | @localVariable assignment name value valid =>
    have hname := Builtin.assignedName_of_localAssignment valid
    exact .inl (.localVariable (hname ▸ OrderedMap.assignedAt_set _ _ _))
  | @resize operand history accepted =>
    have heffect : Effect state (.history [Builtin.setWord, operand]) 0
        { state.session with history } := .resize accepted
    left
    rcases heffect.history with hsame | ⟨size, hresize⟩
    · exact .resize (hsame ▸ List.suffix_refl state.session.history.entries)
    · exact .resize (History.entries_isSuffix_of_resize hresize)
  | replay _ _ => exact .inr ⟨_, rfl⟩
  | exit _ => exact .inl .exit
  | pwd | vars | list | ls => exact .inl (.nothing _)

/-! ## Growth -/

/-- Nothing that was set is taken back. -/
structure Session.Grows (before after : Session) : Prop where
  exported : ∀ name, (before.environment.exported.get? name).isSome = true →
    (after.environment.exported.get? name).isSome = true
  locals : ∀ name, (before.locals.get? name).isSome = true →
    (after.locals.get? name).isSome = true
  pathUnusable : before.pathUnusable = true → after.pathUnusable = true
  exitRequested : before.exitRequested = true → after.exitRequested = true

namespace Session.Grows

/-- The history, the status and the queue have no part in this. -/
theorem of_eq {before after : Session} (environment : after.environment = before.environment)
    (locals : after.locals = before.locals) (unusable : after.pathUnusable = before.pathUnusable)
    (exit : after.exitRequested = before.exitRequested) : Grows before after where
  exported name hname := by rwa [environment]
  locals name hname := by rwa [locals]
  pathUnusable hflag := by rwa [unusable]
  exitRequested hflag := by rwa [exit]

theorem refl (session : Session) : Grows session session := of_eq rfl rfl rfl rfl

theorem trans {first middle last : Session} (h : Grows first middle) (h' : Grows middle last) :
    Grows first last where
  exported name hname := h'.exported name (h.exported name hname)
  locals name hname := h'.locals name (h.locals name hname)
  pathUnusable hflag := h'.pathUnusable (h.pathUnusable hflag)
  exitRequested hflag := h'.exitRequested (h.exitRequested hflag)

end Session.Grows

theorem Call.Touches.grows (h : call.Touches before after) : before.Grows after := by
  cases h with
  | nothing | resize _ => exact .of_eq rfl rfl rfl rfl
  | cd shown => exact ⟨fun _ h => shown.isSome_get? h, fun _ h => h, fun h => h, fun h => h⟩
  | exportVariable assigned _ =>
    refine ⟨fun _ h => assigned.isSome_get? h, fun _ h => h, fun h => ?_, fun h => h⟩
    dsimp only
    rw [h, Bool.true_or]
  | localVariable assigned =>
    exact ⟨fun _ h => h, fun _ h => assigned.isSome_get? h, fun h => h, fun h => h⟩
  | exit => exact ⟨fun _ h => h, fun _ h => h, fun h => h, fun _ => rfl⟩

theorem Call.Effect.grows (h : Effect state call status after) : state.session.Grows after := by
  rcases h.touches with htouches | ⟨entry, rfl⟩
  · exact htouches.grows
  · exact .of_eq rfl rfl rfl rfl

namespace Shell

variable {shell : Shell} {line : Text} {record : Bool} {result : LineResult} {command : CommandLine}

theorem CommandEffect.grows (h : CommandEffect command record before status after) :
    before.Grows after := by
  cases h with
  | quiet =>
    rcases startingSession_eq command record before with hsame | ⟨_, _, -, -, hrecorded⟩
    · rw [hsame]
      exact .refl before
    · rw [hrecorded]
      exact .of_eq rfl rfl rfl rfl
  | builtin _ _ effect => exact effect.grows

theorem LineEffect.grows (h : LineEffect before line record result) :
    before.Grows result.state.session := by
  cases h with
  | unread _ session _ =>
    rw [session]
    exact .refl before
  | run _ effect session _ =>
    rw [session]
    exact effect.grows.trans (.of_eq rfl rfl rfl rfl)

/-- Neither a line nor the entry that it replays takes anything back. -/
theorem grows_executeLine (h : shell.factories = Factory.default) (line : Text) (record : Bool) :
    shell.state.session.Grows (shell.executeLine line record).shell.state.session := by
  have hrun (state : State) (line : Text) (record : Bool) :
      state.session.Grows (runLine shell.factories state line record).state.session := by
    rw [h]
    exact (lineEffect_runLine state line record).grows
  rcases executeLine_cases shell line record with honce | ⟨entry, -, -, htwice⟩
  · rw [honce]
    exact hrun shell.state line record
  · rw [htwice]
    exact (hrun shell.state line record).trans (hrun _ entry false)

/-- Neither does a run. -/
theorem Leads.grows {first last : Shell} {steps : List Step} (hsteps : Leads first steps last)
    (hfirst : first.factories = Factory.default) : first.state.session.Grows last.state.session := by
  have hkeeps := hsteps.preserves
    (P := fun shell =>
      shell.factories = Factory.default ∧ first.state.session.Grows shell.state.session)
    (fun step ⟨hfactories, hgrows⟩ => ?_) ⟨hfirst, .refl _⟩
  · exact hkeeps.1.2
  · refine ⟨?_, hgrows.trans (grows_executeLine hfactories step.text step.record)⟩
    unfold Step.after
    rw [executeLine_shell]
    exact hfactories

/-! ## Whole lines -/

/-- The session before the status is kept and the queue is emptied: with the line recorded if no
builtin was called, and otherwise what the builtin may leave behind. -/
theorem LineEffect.touches {name : Text} {arguments : List Text}
    (h : LineEffect before line record result) (hread : CommandLine.read line = .command command)
    (harguments : (command.expand before.scope).arguments = name :: arguments)
    (hreplay : result.replay = none) :
    ∃ after, result.state.session = { after with lastStatus := result.status } ∧
      (Builtin.isName name = false →
        after = if record then recordLine (Text.significant line) name before else before) ∧
      ∀ builtin : Builtin, builtin.name = name →
        after = before ∨
          ∃ call, builtin.read arguments = .ok (some call) ∧ call.Touches before after := by
  cases h with
  | unread nothing _ _ => exact absurd hread (nothing command)
  | @run found after reads effect session queued =>
    cases hread.symm.trans reads
    refine ⟨after, ?_, ?_⟩
    · rw [session, ← queued, hreplay]
    cases effect with
    | quiet =>
      refine ⟨fun _ => ?_, fun builtin hname => .inl ?_⟩
      · unfold startingSession
        rw [harguments, CommandLine.text_of_read hread]
      · subst hname
        exact startingSession_of_builtin harguments
    | @builtin called _ call _ _ _ calls reads effect =>
      rw [harguments] at calls
      cases calls
      refine ⟨fun hname => ?_, fun builtin hname => ?_⟩
      · rw [Builtin.isName_iff.2 ⟨called, rfl⟩] at hname
        cases hname
      · cases Builtin.name_injective hname
        rcases effect.touches with htouches | ⟨entry, rfl⟩
        · exact .inr ⟨call, reads, htouches⟩
        · rw [queued] at hreplay
          cases hreplay

/-- A line that starts no replay leaves the session as it was, apart from its status, its recording if
it calls no builtin, and the part of the builtin if it calls one.  Hence no run takes away a variable
or lowers a flag. -/
theorem commands_touch_own_part :
    (∀ (shell : Shell) (line : Text) (record : Bool) (command : CommandLine) (name : Text)
        (arguments : List Text),
      shell.factories = Factory.default →
      CommandLine.read line = .command command →
      (command.expand shell.state.session.scope).arguments = name :: arguments →
      (runLine shell.factories shell.state line record).replay = none →
      let before := shell.state.session
      let done := shell.executeLine line record
      ∃ after, done.shell.state.session = { after with lastStatus := done.status } ∧
        (Builtin.isName name = false →
          after = if record then recordLine (Text.significant line) name before else before) ∧
        ∀ builtin : Builtin, builtin.name = name →
          after = before ∨
            ∃ call, builtin.read arguments = .ok (some call) ∧ call.Touches before after) ∧
    ∀ (first : Shell) (steps : List Step) (last : Shell),
      first.factories = Factory.default → Leads first steps last →
        first.state.session.Grows last.state.session := by
  refine ⟨?_, fun first steps last hfirst hsteps => hsteps.grows hfirst⟩
  intro shell line record command name arguments hfactories hread harguments hreplay before done
  have hdone : done = shell.onceRun (runLine shell.factories shell.state line record) :=
    executeLine_of_replay_eq_none hreplay
  rw [hdone]
  have heffect := lineEffect_runLine shell.state line record
  rw [← hfactories] at heffect
  exact heffect.touches hread harguments hreplay

/-- A search path without a directory raises the flag, and no later line lowers it or takes the
variable away. -/
theorem commands_touch_own_part_search_path :
    let line : Text := "export PATH=no".toList
    let broken := bare.executeLine line true
    let last := broken.shell.answerAll [.line "export PATH=/".toList true, .line "exit".toList true]
    (∃ after, (Call.exportVariable "PATH=no".toList).Touches bare.state.session after ∧
        broken.shell.state.session = { after with lastStatus := broken.status }) ∧
      last.state.session.pathUnusable = true ∧
      (last.state.session.environment.exported.get? Program.searchVariable).isSome = true := by
  intro line broken last
  have hread : CommandLine.read line =
      .command
        { text := line
          words := ["export".toList, "PATH=no".toList]
          targets := .empty } := by
    decide +kernel
  obtain ⟨htouches, hgrows⟩ := commands_touch_own_part
  obtain ⟨after, hsession, -, hbuiltin⟩ :=
    htouches bare line true _ "export".toList ["PATH=no".toList] rfl hread (by decide +kernel)
      (by decide +kernel)
  have hraised : broken.shell.state.session.pathUnusable = true := by decide +kernel
  have hfactories : broken.shell.factories = Factory.default :=
    congrArg Shell.factories (executeLine_shell bare line true)
  have hlast := hgrows broken.shell _ last hfactories (leads_steps _ _)
  refine ⟨⟨after, ?_, hsession⟩, hlast.pathUnusable hraised, hlast.exported _ (by decide +kernel)⟩
  rcases hbuiltin .exportVariable rfl with hsame | ⟨call, hcall, hpart⟩
  · rw [hsession, hsame] at hraised
    cases hraised
  · cases hcall
    exact hpart

end Shell

end LineShell
