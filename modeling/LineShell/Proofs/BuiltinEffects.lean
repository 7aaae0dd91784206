import LineShell.Proofs.Actions

/-!
# What a builtin does to the session

A builtin that fails leaves the session as it was (`Call.session_of_run_error`), and a builtin that
succeeds changes it in the one way that its call allows (`Call.effect_of_run_ok`).  `Call.Effect`
lists these ways, one for each call: all of them take the session as it was when the builtin
started, since output never changes it.  Whatever is to be known about the session after a builtin
follows from this list.

Of the builtins that only write, `ls` is the one whose output depends on files:
`Builtin.visibleNames_eq_ok` says which names it shows, and in which order.
-/

namespace LineShell

open LineShell.Action

/-! ## The changes of a session -/

namespace Session

/-- The session after `export`. -/
def exporting (session : Session) (name value : Text) (broken : Bool) : Session :=
  { session with
    environment := session.environment.withVariable name value
    pathUnusable := session.pathUnusable || broken }

end Session

/-- The status and the session with which a call can succeed in a state. -/
inductive Call.Effect (state : State) : Call → Status → Session → Prop where
  | cd {target : Text} {location : Location}
      (found : Builtin.cdDestination target state = .ok location) :
      Effect state (.cd target) 0 (Builtin.enter location state.session)
  | pwd : Effect state .pwd 0 state.session
  | exportVariable {assignment name value : Text}
      (valid : Builtin.exportAssignment assignment = .ok (name, value)) :
      Effect state (.exportVariable assignment) 0
        (state.session.exporting name value (Builtin.breaksSearchPath name value state))
  | localVariable {assignment name value : Text}
      (valid : Builtin.localAssignment assignment = .ok (name, value)) :
      Effect state (.localVariable assignment) 0
        { state.session with locals := state.session.locals.set name value }
  | vars : Effect state .vars 0 state.session
  | list : Effect state (.history []) 0 state.session
  | resize {operand : Text} {history : History}
      (accepted : Builtin.resizedHistory operand state = .ok history) :
      Effect state (.history [Builtin.setWord, operand]) 0 { state.session with history }
  | replay {operand entry : Text} (index : operand ≠ Builtin.setWord)
      (found : Builtin.historyEntry operand state = .ok entry) :
      Effect state (.history [operand]) 0 { state.session with pendingReplay := some entry }
  | ls : Effect state .ls 0 state.session
  | exit {code : Option Text} {status : Status}
      (valid : Builtin.exitStatus code state = .ok status) :
      Effect state (.exit code) status { state.session with exitRequested := true }

/-! ## Builtins that only write -/

namespace Builtin

theorem keepsSession_emit (output : Bytes → WorldAction IoError Unit) (data : Bytes) :
    KeepsSession (emit output data) :=
  .onWorld _ _

/-- The builtin leaves the session alone and succeeds with status zero only. -/
structure OnlyWrites (run : BuiltinAction Status) : Prop where
  keepsSession : KeepsSession run
  returns : Returns run 0

variable (outputs : Outputs)

theorem onlyWrites_runPwd : OnlyWrites (runPwd outputs) where
  keepsSession := .bind .get fun _ => .bind (keepsSession_emit _ _) fun _ => .pure _
  returns := .bind fun _ => .bind fun _ => .pure _

theorem onlyWrites_runLs : OnlyWrites (runLs outputs) where
  keepsSession :=
    .bind (.check _) fun _ => .bind (.forM (fun _ => keepsSession_emit _ _) _) fun _ => .pure _
  returns := .bind fun _ => .bind fun _ => .pure _

theorem onlyWrites_runVars : OnlyWrites (runVars outputs) where
  keepsSession :=
    .bind .get fun _ => .bind (.forM (fun _ => keepsSession_emit _ _) _) fun _ => .pure _
  returns := .bind fun _ => .bind fun _ => .pure _

theorem onlyWrites_listHistory : OnlyWrites (listHistory outputs) where
  keepsSession :=
    .bind .get fun _ => .bind (.forM (fun _ => keepsSession_emit _ _) _) fun _ => .pure _
  returns := .bind fun _ => .bind fun _ => .pure _

/-- What `ls` shows is sorted, and it is everything in the current directory that is not hidden. -/
theorem visibleNames_eq_ok {state : State} {names : List Name} (h : visibleNames state = .ok names) :
    names.Pairwise (fun a b => FileStore.nameOrder a b = true) ∧
      ∃ location, state.world.store.lookUp state.session.environment.directory = .ok location ∧
        ∀ name, name ∈ names ↔
          (state.world.store.find? (name :: location)).isSome = true ∧ name.head? ≠ some 46 := by
  obtain ⟨location, hlocation, h⟩ := except_bind_eq_ok.1 h
  split at h
  · obtain ⟨_, h, -⟩ := except_bind_eq_ok.1 h
    cases h
  obtain rfl := Except.ok.inj h
  refine ⟨(FileStore.pairwise_namesIn _ _).filter _, location, mapError_eq_ok.1 hlocation, ?_⟩
  intro name
  simp [List.mem_filter, FileStore.mem_namesIn]

/-! ## Builtins that check first and change the session last -/

variable {α : Type} {outputs : Outputs}

/-- A builtin that checks, and then changes the session without a further step that could fail,
fails only in its check. -/
theorem session_of_checked_error {test : State → Except BuiltinError α}
    {rest : α → BuiltinAction Status} {state last : State} {e : BuiltinError}
    (hrest : ∀ a middle, rest a middle ≠ .error e last)
    (h : (check test >>= rest) state = .error e last) : last.session = state.session := by
  rcases bind_eq_error.1 h with hcheck | ⟨a, middle, -, hfail⟩
  · rw [(check_eq_error.1 hcheck).2]
  · exact absurd hfail (hrest a middle)

/-- Changing the session and returning a status cannot fail. -/
theorem change_ne_error {change : Session → Session} {status : Status} {state last : State}
    {e : BuiltinError} :
    (do modifySession change; return status : BuiltinAction Status) state ≠ .error e last := by
  intro h
  rcases bind_eq_error.1 h with h | ⟨_, _, -, h⟩
  · exact modifySession_ne_error h
  · exact pure_ne_error h

theorem change_eq_ok {change : Session → Session} {status returned : Status} {state last : State} :
    (do modifySession change; return status : BuiltinAction Status) state = .ok returned last ↔
      status = returned ∧ { state with session := change state.session } = last := by
  constructor
  · intro h
    obtain ⟨_, middle, hchange, hreturn⟩ := bind_eq_ok.1 h
    obtain ⟨rfl, rfl⟩ := pure_eq_ok.1 hreturn
    exact ⟨rfl, modifySession_eq_ok.1 hchange⟩
  · rintro ⟨rfl, rfl⟩
    rfl

variable {state last : State} {status : Status}

theorem runCd_eq_ok {target : Text} (h : runCd target state = .ok status last) :
    Call.Effect state (.cd target) status last.session := by
  obtain ⟨location, middle, hcheck, hchange⟩ := bind_eq_ok.1 h
  obtain ⟨hfound, rfl⟩ := check_eq_ok.1 hcheck
  obtain ⟨rfl, rfl⟩ := change_eq_ok.1 hchange
  exact .cd hfound

theorem runLocal_eq_ok {assignment : Text} (h : runLocal assignment state = .ok status last) :
    Call.Effect state (.localVariable assignment) status last.session := by
  obtain ⟨⟨name, value⟩, middle, hcheck, hchange⟩ := bind_eq_ok.1 h
  obtain ⟨hvalid, rfl⟩ := check_eq_ok.1 hcheck
  obtain ⟨rfl, rfl⟩ := change_eq_ok.1 hchange
  exact .localVariable hvalid

theorem runExit_eq_ok {code : Option Text} (h : runExit code state = .ok status last) :
    Call.Effect state (.exit code) status last.session := by
  obtain ⟨returned, middle, hcheck, hchange⟩ := bind_eq_ok.1 h
  obtain ⟨hvalid, rfl⟩ := check_eq_ok.1 hcheck
  obtain ⟨rfl, rfl⟩ := change_eq_ok.1 hchange
  exact .exit hvalid

theorem resizeHistory_eq_ok {operand : Text} (h : resizeHistory operand state = .ok status last) :
    Call.Effect state (.history [setWord, operand]) status last.session := by
  obtain ⟨history, middle, hcheck, hchange⟩ := bind_eq_ok.1 h
  obtain ⟨haccepted, rfl⟩ := check_eq_ok.1 hcheck
  obtain ⟨rfl, rfl⟩ := change_eq_ok.1 hchange
  exact .resize haccepted

theorem runExport_eq_ok {assignment : Text}
    (h : runExport outputs assignment state = .ok status last) :
    Call.Effect state (.exportVariable assignment) status last.session := by
  obtain ⟨⟨name, value⟩, middle, hcheck, h⟩ := bind_eq_ok.1 h
  obtain ⟨hvalid, rfl⟩ := check_eq_ok.1 hcheck
  obtain ⟨_, middle, hget, h⟩ := bind_eq_ok.1 h
  obtain ⟨rfl, rfl⟩ := get_eq_ok.1 hget
  have heffect :
      Call.Effect state (.exportVariable assignment) 0
        (state.session.exporting name value (breaksSearchPath name value state)) :=
    .exportVariable hvalid
  -- The warning about an unusable search path is the only step between check and change.
  split at h
  · obtain ⟨_, warned, hwarn, hchange⟩ := bind_eq_ok.1 h
    obtain ⟨rfl, rfl⟩ := change_eq_ok.1 hchange
    rw [← (keepsSession_emit _ _).ok hwarn] at heffect
    exact heffect
  · obtain ⟨rfl, rfl⟩ := change_eq_ok.1 h
    exact heffect

theorem runExport_eq_error {assignment : Text} {e : BuiltinError}
    (h : runExport outputs assignment state = .error e last) : last.session = state.session := by
  rcases bind_eq_error.1 h with hcheck | ⟨⟨name, value⟩, middle, hcheck, h⟩
  · rw [(check_eq_error.1 hcheck).2]
  obtain ⟨hvalid, rfl⟩ := check_eq_ok.1 hcheck
  rcases bind_eq_error.1 h with hget | ⟨_, middle, hget, h⟩
  · exact absurd hget get_ne_error
  obtain ⟨rfl, rfl⟩ := get_eq_ok.1 hget
  split at h
  · rcases bind_eq_error.1 h with hwarn | ⟨_, warned, -, hchange⟩
    · exact (keepsSession_emit _ _).error hwarn
    · exact absurd hchange change_ne_error
  · exact absurd h change_ne_error

theorem replayHistory_eq_ok {operand : Text} (index : operand ≠ setWord)
    (h : replayHistory outputs operand state = .ok status last) :
    Call.Effect state (.history [operand]) status last.session := by
  obtain ⟨entry, middle, hcheck, h⟩ := bind_eq_ok.1 h
  obtain ⟨hfound, rfl⟩ := check_eq_ok.1 hcheck
  obtain ⟨_, shown, hshow, hchange⟩ := bind_eq_ok.1 h
  obtain ⟨rfl, rfl⟩ := change_eq_ok.1 hchange
  have heffect := Call.Effect.replay index hfound
  rw [← (keepsSession_emit _ _).ok hshow] at heffect
  exact heffect

theorem replayHistory_eq_error {operand : Text} {e : BuiltinError}
    (h : replayHistory outputs operand state = .error e last) : last.session = state.session := by
  rcases bind_eq_error.1 h with hcheck | ⟨entry, middle, hcheck, h⟩
  · rw [(check_eq_error.1 hcheck).2]
  obtain ⟨hfound, rfl⟩ := check_eq_ok.1 hcheck
  rcases bind_eq_error.1 h with hshow | ⟨_, shown, -, hchange⟩
  · exact (keepsSession_emit _ _).error hshow
  · exact absurd hchange change_ne_error

theorem runHistory_eq_ok {operands : List Text}
    (h : runHistory outputs operands state = .ok status last) :
    Call.Effect state (.history operands) status last.session := by
  match operands with
  | [] =>
    have hwrites := onlyWrites_listHistory outputs
    rw [hwrites.returns _ _ _ h, hwrites.keepsSession.ok h]
    exact .list
  | [operand] =>
    rw [runHistory] at h
    split at h
    · cases (check_eq_ok.1 h).1
    · next index => exact replayHistory_eq_ok index h
  | [first, second] =>
    rw [runHistory] at h
    split at h
    · next hset => exact hset ▸ resizeHistory_eq_ok h
    · cases (check_eq_ok.1 h).1
  | first :: second :: extra :: rest =>
    rw [runHistory] at h
    split at h <;> cases (check_eq_ok.1 h).1

theorem runHistory_eq_error {operands : List Text} {e : BuiltinError}
    (h : runHistory outputs operands state = .error e last) : last.session = state.session := by
  match operands with
  | [] => exact (onlyWrites_listHistory outputs).keepsSession.error h
  | [operand] =>
    rw [runHistory] at h
    split at h
    · exact (KeepsSession.check _).error h
    · exact replayHistory_eq_error h
  | [first, second] =>
    rw [runHistory] at h
    split at h
    · exact session_of_checked_error (fun _ _ => change_ne_error) h
    · exact (KeepsSession.check _).error h
  | first :: second :: extra :: rest =>
    rw [runHistory] at h
    split at h <;> exact (KeepsSession.check _).error h

end Builtin

/-! ## All builtins -/

namespace Call

variable {outputs : Outputs} {call : Call} {state last : State}

/-- A builtin that succeeds changes the session in the way of its call. -/
theorem effect_of_run_ok {status : Status} (h : call.run outputs state = .ok status last) :
    Effect state call status last.session := by
  cases call with
  | cd target => exact Builtin.runCd_eq_ok h
  | exportVariable assignment => exact Builtin.runExport_eq_ok h
  | localVariable assignment => exact Builtin.runLocal_eq_ok h
  | history operands => exact Builtin.runHistory_eq_ok h
  | exit code => exact Builtin.runExit_eq_ok h
  | pwd =>
    have hwrites := Builtin.onlyWrites_runPwd outputs
    rw [hwrites.returns _ _ _ h, hwrites.keepsSession.ok h]
    exact .pwd
  | vars =>
    have hwrites := Builtin.onlyWrites_runVars outputs
    rw [hwrites.returns _ _ _ h, hwrites.keepsSession.ok h]
    exact .vars
  | ls =>
    have hwrites := Builtin.onlyWrites_runLs outputs
    rw [hwrites.returns _ _ _ h, hwrites.keepsSession.ok h]
    exact .ls

/-- A builtin that fails leaves the session as it was. -/
theorem session_of_run_error {e : BuiltinError} (h : call.run outputs state = .error e last) :
    last.session = state.session := by
  cases call with
  | cd target => exact Builtin.session_of_checked_error (fun _ _ => Builtin.change_ne_error) h
  | localVariable assignment =>
    exact Builtin.session_of_checked_error (fun _ _ => Builtin.change_ne_error) h
  | exit code => exact Builtin.session_of_checked_error (fun _ _ => Builtin.change_ne_error) h
  | exportVariable assignment => exact Builtin.runExport_eq_error h
  | history operands => exact Builtin.runHistory_eq_error h
  | pwd => exact (Builtin.onlyWrites_runPwd outputs).keepsSession.error h
  | vars => exact (Builtin.onlyWrites_runVars outputs).keepsSession.error h
  | ls => exact (Builtin.onlyWrites_runLs outputs).keepsSession.error h

/-! ## Reading the list of effects -/

/-- The builtin that a call is one of. -/
def builtin : Call → Builtin
  | cd _ => .cd
  | pwd => .pwd
  | exportVariable _ => .exportVariable
  | localVariable _ => .localVariable
  | vars => .vars
  | history _ => .history
  | ls => .ls
  | exit _ => .exit

theorem builtin_of_read {builtin : Builtin} {arguments : List Text}
    (h : builtin.read arguments = .ok (some call)) : call.builtin = builtin := by
  unfold Builtin.read at h
  cases hgiven : builtin.grammar.read arguments with
  | error fault => simp [hgiven, Except.map] at h
  | ok given =>
    simp only [hgiven, Except.map, Except.ok.injEq, Option.map_eq_some_iff] at h
    obtain ⟨given, -, rfl⟩ := h
    cases builtin <;> rfl

variable {status : Status} {after : Session}

theorem mem_entries_of_historyEntry {operand entry : Text}
    (h : Builtin.historyEntry operand state = .ok entry) :
    entry ∈ state.session.history.entries := by
  unfold Builtin.historyEntry at h
  split at h
  · cases h
  · next index _ =>
    split at h
    · cases h
    · next found hfound =>
      cases h
      cases index with
      | zero => cases hfound
      | succ i => exact List.mem_of_getElem? hfound

/-- An entry is queued by a call of `history` only, and it is an entry of the history. -/
theorem Effect.pendingReplay (h : Effect state call status after) :
    after.pendingReplay = state.session.pendingReplay ∨
      call.builtin = .history ∧
        ∃ entry ∈ state.session.history.entries, after.pendingReplay = some entry := by
  cases h with
  | replay _ found => exact .inr ⟨rfl, _, mem_entries_of_historyEntry found, rfl⟩
  | cd _ | pwd | exportVariable _ | localVariable _ | vars | list | resize _ | ls | exit _ =>
    exact .inl rfl

/-- A builtin leaves the history as it is or gives it another size. -/
theorem Effect.history (h : Effect state call status after) :
    after.history = state.session.history ∨
      ∃ size, state.session.history.resize size = .ok after.history := by
  cases h with
  | resize accepted =>
    right
    unfold Builtin.resizedHistory at accepted
    split at accepted
    · cases accepted
    · next size _ => exact ⟨size, mapError_eq_ok.1 accepted⟩
  | cd _ | pwd | exportVariable _ | localVariable _ | vars | list | replay _ _ | ls | exit _ =>
    exact .inl rfl

end Call

end LineShell
