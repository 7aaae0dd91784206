import LineShell.Proofs.CommandOutputs
import LineShell.Proofs.LineEffects
import LineShell.Proofs.OpenedTargets

/-!
# Open files that a line leaves alone

A line reads and writes through the streams of its command.  These are the console, or files that were
opened for this line, so a file that was open before is none of them: the line leaves it open as it is,
and does the same wherever that file is to be read next (`Shell.executeLine_seek`).

`Action.Commutes` carries this through the actions that a line is made of.  The offset of the file may
be moved before or after the action, as long as the file is open, and the action keeps it open.
-/

namespace LineShell

open LineShell.Action

variable {number other offset : Nat} {file : OpenFile}

/-! ## Moving the offset of an open file -/

namespace World

variable {world after : World} {sink : Sink} {source : Source} {data : Bytes}

/-- The file is open and has that number. -/
def HasOpen (number : Nat) (file : OpenFile) (world : World) : Prop :=
  world.openFiles[number]? = some file

theorem HasOpen.lt_length (h : world.HasOpen number file) : number < world.openFiles.length :=
  (List.getElem?_eq_some_iff.1 h).1

theorem HasOpen.append (h : world.HasOpen number file) {more : List OpenFile}
    (hmore : after.openFiles = world.openFiles ++ more) : after.HasOpen number file := by
  unfold HasOpen
  rw [hmore, List.getElem?_append_left h.lt_length]
  exact h

theorem HasOpen.closeFrom (h : world.HasOpen number file) {count : Nat} (hcount : number < count) :
    (world.closeFrom count).HasOpen number file := by
  unfold HasOpen World.closeFrom
  rw [List.getElem?_take_of_lt hcount]
  exact h

@[simp]
theorem length_openFiles_seek (world : World) (number offset : Nat) :
    (world.seek number offset).openFiles.length = world.openFiles.length :=
  List.length_modify _ _ _

theorem getElem?_seek_of_ne (h : number ≠ other) (world : World) (offset : Nat) :
    (world.seek number offset).openFiles[other]? = world.openFiles[other]? :=
  List.getElem?_modify_ne _ _ h

theorem HasOpen.seek_of_ne (h : world.HasOpen number file) (hne : other ≠ number) (offset : Nat) :
    (world.seek other offset).HasOpen number file :=
  (getElem?_seek_of_ne hne world offset).trans h

theorem HasOpen.seek (h : world.HasOpen number file) (offset : Nat) :
    (world.seek number offset).HasOpen number { file with offset } := by
  unfold HasOpen World.seek
  rw [List.getElem?_modify_eq, h]
  rfl

/-- Nothing changes if the offset is moved to where it is. -/
theorem HasOpen.seek_self (h : world.HasOpen number file) :
    world.seek number file.offset = world := by
  have hmodify : world.openFiles.modify number (fun f => { f with offset := file.offset }) =
      world.openFiles := by
    refine List.ext_getElem? fun i => ?_
    rw [List.getElem?_modify]
    by_cases hi : number = i
    · subst hi
      rw [h]
      simp
    · simp [hi]
  unfold World.seek
  rw [hmodify]

theorem seek_comm (h : number ≠ other) (world : World) (offset position : Nat) :
    (world.seek number offset).seek other position =
      (world.seek other position).seek number offset := by
  unfold seek
  rw [List.modify_modify_ne _ _ _ h]

theorem seek_seek (world : World) (number offset position : Nat) :
    (world.seek number offset).seek number position = world.seek number position := by
  unfold seek
  rw [List.modify_modify_eq]
  rfl

/-- A file may be closed or opened before the offset of another one is moved, or behind that. -/
theorem closeFrom_seek (world : World) (number offset count : Nat) :
    (world.seek number offset).closeFrom count = (world.closeFrom count).seek number offset := by
  have htake (f : OpenFile → OpenFile) : (world.openFiles.modify number f).take count =
      (world.openFiles.take count).modify number f := by
    refine List.ext_getElem? fun i => ?_
    rw [List.getElem?_take, List.getElem?_modify, List.getElem?_modify, List.getElem?_take]
    split <;> rfl
  unfold closeFrom seek
  rw [htake]

theorem withOpened_seek (h : world.HasOpen number file) (offset : Nat)
    (opening : Redirection.Opening) (location : Location) (store : FileStore) :
    (world.seek number offset).withOpened opening location store =
      (world.withOpened opening location store).seek number offset := by
  have happend (f : OpenFile → OpenFile) (last : OpenFile) :
      world.openFiles.modify number f ++ [last] = (world.openFiles ++ [last]).modify number f := by
    refine List.ext_getElem? fun i => ?_
    rw [List.getElem?_modify, List.getElem?_append, List.getElem?_append, List.length_modify,
      List.getElem?_modify]
    split
    · rfl
    · next hbehind =>
      have hne : number ≠ i := fun hsame => hbehind (hsame ▸ h.lt_length)
      simp [hne]
  unfold withOpened seek
  dsimp only
  rw [happend]

@[simp]
theorem store_seek (world : World) (number offset : Nat) :
    (world.seek number offset).store = world.store := rfl

@[simp]
theorem console_seek (world : World) (number offset : Nat) :
    (world.seek number offset).console = world.console := rfl

theorem beingWritten_seek (world : World) (number offset : Nat) :
    (world.seek number offset).beingWritten = world.beingWritten := by
  unfold beingWritten seek
  dsimp only
  generalize world.openFiles = files
  induction files generalizing number with
  | nil => simp
  | cons first files ih =>
    cases number with
    | zero => cases hwriting : first.writing <;> simp [hwriting]
    | succ number => cases hwriting : first.writing <;> simp [hwriting, ih number]

/-! ## Reading and writing elsewhere -/

theorem writeFile_seek (h : other ≠ number) (world : World) (offset : Nat) (data : Bytes) :
    (world.seek number offset).writeFile other data =
      (world.writeFile other data).map (·.seek number offset) := by
  unfold writeFile
  rw [getElem?_seek_of_ne h.symm, store_seek]
  cases world.openFiles[other]? with
  | none => rfl
  | some file =>
    dsimp only
    split
    · split
      · rfl
      · exact congrArg Except.ok (seek_comm h.symm { world with store := _ } _ _)
    · split <;> rfl
    · rfl

theorem write_seek (h : sink ≠ .file number) (world : World) (offset : Nat) (data : Bytes) :
    (world.seek number offset).write sink data =
      (world.write sink data).map (·.seek number offset) := by
  cases sink with
  | output | diagnostics | nothing => rfl
  | file other => exact writeFile_seek (fun hsame => h (congrArg Sink.file hsame)) world offset data

theorem tryWrite_seek (h : sink ≠ .file number) (world : World) (offset : Nat) (data : Bytes) :
    (world.seek number offset).tryWrite sink data =
      (world.tryWrite sink data).seek number offset := by
  unfold tryWrite
  rw [write_seek h]
  cases world.write sink data <;> rfl

theorem read_seek (h : source ≠ .file number) (world : World) (offset : Nat) (limit : Option Nat) :
    (world.seek number offset).read source limit =
      (world.read source limit).map fun (data, world) => (data, world.seek number offset) := by
  cases source with
  | console | nothing => rfl
  | file other =>
    have hne : number ≠ other := fun hsame => h (congrArg Source.file hsame.symm)
    unfold read
    dsimp only
    rw [getElem?_seek_of_ne hne]
    cases world.openFiles[other]? with
    | none => rfl
    | some file =>
      change (world.restOfFile file limit >>= _) = (world.restOfFile file limit >>= _).map _
      cases world.restOfFile file limit with
      | error cause => rfl
      | ok data => exact congrArg (fun world => Except.ok (data, world)) (seek_comm hne _ _ _)

theorem HasOpen.writeFile (h : world.HasOpen number file) (hne : other ≠ number)
    (hwrite : world.writeFile other data = .ok after) : after.HasOpen number file := by
  rcases writeFile_cases world other data with
    hsame | ⟨_, _, _, _, offset, -, hwritten⟩ | ⟨-, hrefused⟩
  · cases hsame.symm.trans hwrite
    exact h
  · cases hwritten.symm.trans hwrite
    exact h.seek_of_ne hne offset
  · cases hrefused.symm.trans hwrite

theorem HasOpen.write (h : world.HasOpen number file) (hsink : sink ≠ .file number)
    (hwrite : world.write sink data = .ok after) : after.HasOpen number file := by
  cases sink with
  | output | diagnostics | nothing =>
    cases hwrite
    exact h
  | file other => exact h.writeFile (fun hsame => hsink (congrArg Sink.file hsame)) hwrite

theorem HasOpen.tryWrite (h : world.HasOpen number file) (hsink : sink ≠ .file number)
    (data : Bytes) : (world.tryWrite sink data).HasOpen number file := by
  unfold World.tryWrite
  split
  · next hwrite => exact h.write hsink hwrite
  · exact h

theorem HasOpen.read (h : world.HasOpen number file) (hsource : source ≠ .file number)
    {limit : Option Nat} (hread : world.read source limit = .ok (data, after)) :
    after.HasOpen number file := by
  cases source with
  | console | nothing =>
    cases hread
    exact h
  | file other =>
    have hne : other ≠ number := fun hsame => hsource (congrArg Source.file hsame)
    unfold World.read at hread
    dsimp only at hread
    split at hread
    · cases hread
      exact h
    · obtain ⟨bytes, -, hread⟩ := except_bind_eq_ok.1 hread
      cases hread
      exact h.seek_of_ne hne _

end World

/-- None of the streams is the open file with that number. -/
structure Streams.Avoid (streams : Streams) (number : Nat) : Prop where
  stdin : streams.stdin ≠ .file number
  stdout : streams.stdout ≠ .file number
  stderr : streams.stderr ≠ .file number

theorem Streams.avoid_ofConsole (number : Nat) : Streams.ofConsole.Avoid number := ⟨nofun, nofun, nofun⟩

theorem Streams.Avoid.forProgram {streams : Streams} (h : streams.Avoid number)
    (kind : ConsoleKind) : (streams.forProgram kind).Avoid number := by
  have hhide {sink : Sink} (hsink : sink ≠ .file number) :
      Streams.forProgram.hide sink ≠ .file number := by
    unfold Streams.forProgram.hide
    split
    · nofun
    · nofun
    · exact hsink
  cases kind with
  | inherited => exact h
  | captured =>
    refine ⟨?_, hhide h.stdout, hhide h.stderr⟩
    unfold Streams.forProgram
    dsimp only
    split
    · nofun
    · exact h.stdin

/-! ## Actions -/

namespace Action

variable {ε α β : Type}

/-- While `P` holds, which the action sees to, it makes no difference whether `f` comes before the
action or behind it. -/
structure Commutes {σ : Type} (P : σ → Prop) (f : σ → σ) (x : EStateM ε σ α) : Prop where
  ok : ∀ {state last : σ} {a : α}, P state → x state = .ok a last →
    P last ∧ x (f state) = .ok a (f last)
  error : ∀ {state last : σ} {e : ε}, P state → x state = .error e last →
    P last ∧ x (f state) = .error e (f last)

namespace Commutes

section Sequences

variable {σ : Type} {P : σ → Prop} {f : σ → σ}

theorem pure (a : α) : Commutes P f (Pure.pure a : EStateM ε σ α) where
  ok h hrun := by
    obtain ⟨rfl, rfl⟩ := pure_eq_ok.1 hrun
    exact ⟨h, rfl⟩
  error _ hrun := absurd hrun pure_ne_error

theorem bind {x : EStateM ε σ α} {g : α → EStateM ε σ β} (hx : Commutes P f x)
    (hg : ∀ {state last : σ} {a : α}, P state → x state = .ok a last → Commutes P f (g a)) :
    Commutes P f (x >>= g) where
  ok h hrun := by
    obtain ⟨a, middle, hfirst, hrest⟩ := bind_eq_ok.1 hrun
    obtain ⟨hmiddle, hfirst'⟩ := hx.ok h hfirst
    obtain ⟨hlast, hrest'⟩ := (hg h hfirst).ok hmiddle hrest
    exact ⟨hlast, bind_eq_ok.2 ⟨a, f middle, hfirst', hrest'⟩⟩
  error h hrun := by
    rcases bind_eq_error.1 hrun with hfirst | ⟨a, middle, hfirst, hrest⟩
    · obtain ⟨hlast, hfirst'⟩ := hx.error h hfirst
      exact ⟨hlast, bind_eq_error.2 (.inl hfirst')⟩
    · obtain ⟨hmiddle, hfirst'⟩ := hx.ok h hfirst
      obtain ⟨hlast, hrest'⟩ := (hg h hfirst).error hmiddle hrest
      exact ⟨hlast, bind_eq_error.2 (.inr ⟨a, f middle, hfirst', hrest'⟩)⟩

/-- An action may choose by the state what it does, if `f` makes no difference to the choice. -/
theorem of_choice {x : EStateM ε σ α}
    (h : ∀ state, ∃ chosen, Commutes P f chosen ∧ x state = chosen state ∧
      x (f state) = chosen (f state)) : Commutes P f x := by
  constructor
  · intro state last a hstate hrun
    obtain ⟨chosen, hchosen, hsame, hsame'⟩ := h state
    rw [hsame']
    exact hchosen.ok hstate (hsame.symm.trans hrun)
  · intro state last e hstate hrun
    obtain ⟨chosen, hchosen, hsame, hsame'⟩ := h state
    rw [hsame']
    exact hchosen.error hstate (hsame.symm.trans hrun)

end Sequences

end Commutes

end Action

/-- The action spares the open file with that number: it keeps it open as it is, and its offset can be
moved before or after the action. -/
abbrev WorldAction.Spares {ε α : Type} (number : Nat) (file : OpenFile) (offset : Nat)
    (x : WorldAction ε α) : Prop :=
  Commutes (World.HasOpen number file) (World.seek · number offset) x

/-- The state with another offset of an open file. -/
def State.seek (state : State) (number offset : Nat) : State :=
  { state with world := state.world.seek number offset }

theorem State.LooksAtStore.seek {β : Type} {f : State → β} (h : State.LooksAtStore f)
    (state : State) (number offset : Nat) : f (state.seek number offset) = f state :=
  h state.session _ _ (state.world.store_seek number offset)

abbrev Action.Spares {ε α : Type} (number : Nat) (file : OpenFile) (offset : Nat)
    (x : Action ε α) : Prop :=
  Commutes (fun state : State => state.world.HasOpen number file) (State.seek · number offset) x

namespace WorldAction.Spares

variable {ε α : Type}

/-- A step of the world that may be refused. -/
theorem ofStep {step : World → Except ε (α × World)}
    (hstep : ∀ {world : World}, world.HasOpen number file → step (world.seek number offset) =
      (step world).map fun (a, after) => (a, after.seek number offset))
    (hkeeps : ∀ {world after : World} {a : α}, world.HasOpen number file →
      step world = .ok (a, after) → after.HasOpen number file) :
    WorldAction.Spares number file offset (WorldAction.ofStep step) where
  ok h hrun := by
    have hran := ofStep_eq_ok.1 hrun
    refine ⟨hkeeps h hran, ofStep_eq_ok.2 ?_⟩
    rw [hstep h, hran]
    rfl
  error h hrun := by
    obtain ⟨hran, rfl⟩ := ofStep_eq_error.1 hrun
    refine ⟨h, ofStep_eq_error.2 ⟨?_, rfl⟩⟩
    rw [hstep h, hran]
    rfl

theorem write {sink : Sink} (hsink : sink ≠ .file number) (data : Bytes) :
    WorldAction.Spares number file offset (WorldAction.write sink data) := by
  refine ofStep (fun {world} _ => ?_) fun h hran => ?_
  · rw [World.write_seek hsink]
    cases world.write sink data <;> rfl
  · obtain ⟨written, hwrite, hafter⟩ := except_map_eq_ok.1 hran
    cases hafter
    exact h.write hsink hwrite

/-! ### Opening the targets -/

section Targets

open Redirection

/-- Opening a file.  The handle on it is told by how many files are open. -/
theorem one {α : Type} {o : Opening} {handle : World → α} {step : World → Except IoError (α × World)}
    (hstep : ∀ world, step world = (o.inStore world.store).map fun found =>
      (handle world, world.withOpened o found.1 found.2))
    (hhandle : ∀ world, handle (world.seek number offset) = handle world) :
    WorldAction.Spares number file offset (opening o.path step) := by
  refine ofStep (fun {world} h => ?_) fun {world after a} h hopened => ?_
  · rw [hstep, hstep, hhandle, World.store_seek]
    cases o.inStore world.store with
    | error cause => rfl
    | ok found => exact congrArg (fun world => Except.ok (_, world)) (World.withOpened_seek h _ _ _ _)
  · have hfound := (hstep world).symm.trans (mapError_eq_ok.1 hopened)
    obtain ⟨found, -, hafter⟩ := except_map_eq_ok.1 hfound
    cases hafter
    exact h.append rfl

variable (environment : Environment)

theorem openInput (path : Option Text) (source : Source) :
    WorldAction.Spares number file offset (Redirection.openInput environment path source) := by
  cases path with
  | none => exact .pure source
  | some path =>
    exact one (World.openInput_eq · (environment.resolve path)) fun world =>
      congrArg Source.file (world.length_openFiles_seek number offset)

theorem openOutput (target : Option Target) (sink : Sink) :
    WorldAction.Spares number file offset (Redirection.openOutput environment target sink) := by
  cases target with
  | none => exact .pure sink
  | some target =>
    exact one (World.openOutput_eq · (environment.resolve target.path) target.mode) fun world =>
      congrArg Sink.file (world.length_openFiles_seek number offset)

theorem openAll (targets : Targets) (streams : Streams) :
    WorldAction.Spares number file offset (targets.openAll environment streams) := by
  refine .bind (openInput environment _ _) fun _ _ => .bind (openOutput environment _ _) fun _ _ =>
    .bind (openOutput environment _ _) fun _ _ => ?_
  cases targets.combined with
  | none => exact .pure _
  | some target => exact .bind (openOutput environment (some target) _) fun _ _ => .pure _

end Targets

end WorldAction.Spares

namespace Redirection

variable {environment : Environment} {world after : World}

/-- A target is opened under a number that no file has yet. -/
theorem openInput_avoids (h : world.HasOpen number file) {path : Option Text}
    {source found : Source} (hsource : source ≠ .file number)
    (hopen : openInput environment path source world = .ok found after) :
    found ≠ .file number ∧ after.HasOpen number file := by
  cases path with
  | none =>
    obtain ⟨rfl, rfl⟩ := pure_eq_ok.1 hopen
    exact ⟨hsource, h⟩
  | some path =>
    have hfound := (World.openInput_eq world (environment.resolve path)).symm.trans
      (opening_eq_ok hopen)
    obtain ⟨_, -, hafter⟩ := except_map_eq_ok.1 hfound
    cases hafter
    exact ⟨fun hsame => h.lt_length.ne' (Source.file.inj hsame), h.append rfl⟩

theorem openOutput_avoids (h : world.HasOpen number file) {target : Option Target}
    {sink found : Sink} (hsink : sink ≠ .file number)
    (hopen : openOutput environment target sink world = .ok found after) :
    found ≠ .file number ∧ after.HasOpen number file := by
  cases target with
  | none =>
    obtain ⟨rfl, rfl⟩ := pure_eq_ok.1 hopen
    exact ⟨hsink, h⟩
  | some target =>
    have hfound := (World.openOutput_eq world (environment.resolve target.path) target.mode).symm.trans
      (opening_eq_ok hopen)
    obtain ⟨_, -, hafter⟩ := except_map_eq_ok.1 hfound
    cases hafter
    exact ⟨fun hsame => h.lt_length.ne' (Sink.file.inj hsame), h.append rfl⟩

theorem Targets.avoid_of_openAll (h : world.HasOpen number file) {targets : Targets}
    {streams opened : Streams} (havoid : streams.Avoid number)
    (hopen : targets.openAll environment streams world = .ok opened after) :
    opened.Avoid number := by
  obtain ⟨stdin, _, hstdin, hopen⟩ := bind_eq_ok.1 hopen
  obtain ⟨hin, h⟩ := openInput_avoids h havoid.stdin hstdin
  obtain ⟨stdout, _, hstdout, hopen⟩ := bind_eq_ok.1 hopen
  obtain ⟨hout, h⟩ := openOutput_avoids h havoid.stdout hstdout
  obtain ⟨stderr, _, hstderr, hopen⟩ := bind_eq_ok.1 hopen
  obtain ⟨herr, h⟩ := openOutput_avoids h havoid.stderr hstderr
  cases hcombined : targets.combined with
  | none =>
    rw [hcombined] at hopen
    obtain ⟨rfl, -⟩ := pure_eq_ok.1 hopen
    exact ⟨hin, hout, herr⟩
  | some target =>
    rw [hcombined] at hopen
    obtain ⟨both, _, hboth, hopen⟩ := bind_eq_ok.1 hopen
    obtain ⟨rfl, -⟩ := pure_eq_ok.1 hopen
    obtain ⟨hshared, -⟩ := openOutput_avoids h hout hboth
    exact ⟨hin, hshared, hshared⟩

end Redirection

/-! ## Programs -/

namespace Program

variable {streams : Streams}

theorem prepare_seek (world : World) (number offset : Nat) (environment : Environment) (path : Path)
    (arguments : List Text) (streams : Streams) :
    prepare (world.seek number offset) environment path arguments streams =
      prepare world environment path arguments streams := by
  unfold prepare
  rw [World.beingWritten_seek]
  rfl

theorem run_seek {process : Process} (h : process.streams.Avoid number) (world : World)
    (offset : Nat) :
    run process (world.seek number offset) =
      ((run process world).1, (run process world).2.seek number offset) := by
  unfold run
  dsimp only
  cases process.tool with
  | echo | showArguments | env | cwd => simp only [World.tryWrite_seek h.stdout]
  | both => simp only [World.tryWrite_seek h.stdout, World.tryWrite_seek h.stderr]
  | status | kill | succeed | fail => rfl
  | cat =>
    dsimp only
    rw [World.read_seek h.stdin]
    cases world.read process.streams.stdin none with
    | ok found => exact congrArg (Ending.exited 0, ·) (World.tryWrite_seek h.stdout _ _ _)
    | error cause => exact congrArg (Ending.exited 1, ·) (World.tryWrite_seek h.stderr _ _ _)

theorem hasOpen_run {process : Process} (h : process.streams.Avoid number) {world : World}
    (hopen : world.HasOpen number file) : (run process world).2.HasOpen number file := by
  unfold run
  dsimp only
  cases process.tool with
  | echo | showArguments | env | cwd => exact hopen.tryWrite h.stdout _
  | both => exact (hopen.tryWrite h.stdout _).tryWrite h.stderr _
  | status | kill | succeed | fail => exact hopen
  | cat =>
    dsimp only
    split
    · next hread => exact (hopen.read h.stdin hread).tryWrite h.stdout _
    · exact hopen.tryWrite h.stderr _

theorem spares_run {process : Process} (h : process.streams.Avoid number) :
    WorldAction.Spares number file offset
      (fun world => .ok (run process world).1.status (run process world).2 :
        WorldAction ShellError Status) where
  ok hopen hrun := by
    cases hrun
    refine ⟨hasOpen_run h hopen, ?_⟩
    rw [run_seek h]
  error _ hrun := by cases hrun

/-- Telling why no program was started. -/
theorem spares_refusal {sink : Sink} (hsink : sink ≠ .file number) (message : Bytes)
    (status : Status) :
    WorldAction.Spares number file offset (fun world =>
      match world.write sink message with
      | .ok world => .ok status world
      | .error cause => .error (ShellError.stream cause) world) where
  ok hopen hrun := by
    rw [World.write_seek hsink]
    split at hrun
    · next hwrite =>
      cases hrun
      rw [hwrite]
      exact ⟨hopen.write hsink hwrite, rfl⟩
    · cases hrun
  error hopen hrun := by
    rw [World.write_seek hsink]
    split at hrun
    · cases hrun
    · next hwrite =>
      cases hrun
      rw [hwrite]
      exact ⟨hopen, rfl⟩

theorem spares_start (h : streams.Avoid number) (environment : Environment) (path : Path)
    (name : Text) (arguments : List Text) :
    WorldAction.Spares number file offset (start environment path name arguments streams) := by
  refine .of_choice fun world => ?_
  unfold start
  rw [prepare_seek, World.console_seek]
  cases hprepare : prepare world environment path (name :: arguments)
      (streams.forProgram world.console.kind) with
  | ok process =>
    have havoid : process.streams.Avoid number := by
      rw [streams_of_prepare hprepare]
      exact h.forProgram _
    exact ⟨_, spares_run havoid, rfl, rfl⟩
  | error cause =>
    exact ⟨_, spares_refusal h.stderr _ (ShellError.notStarted name cause).status, rfl, rfl⟩

end Program

/-! ## Commands -/

namespace Action.Commutes

variable {ε δ α β : Type}

theorem onWorld (failure : δ → ε) {x : WorldAction δ α} (hx : x.Spares number file offset) :
    Action.Spares number file offset (State.onWorld failure x) where
  ok h hrun := by
    obtain ⟨world, hran, rfl⟩ := onWorld_eq_ok.1 hrun
    obtain ⟨hlast, hran'⟩ := hx.ok h hran
    exact ⟨hlast, onWorld_eq_ok.2 ⟨_, hran', rfl⟩⟩
  error h hrun := by
    obtain ⟨cause, world, hran, rfl, rfl⟩ := onWorld_eq_error.1 hrun
    obtain ⟨hlast, hran'⟩ := hx.error h hran
    exact ⟨hlast, onWorld_eq_error.2 ⟨_, _, hran', rfl, rfl⟩⟩

/-- Reading the state, to look at its store only. -/
theorem get_bind {f : State → Action ε β} (hlooks : State.LooksAtStore f)
    (hf : ∀ state, Action.Spares number file offset (f state)) :
    Action.Spares number file offset (get >>= f) := by
  refine of_choice fun state => ⟨f state, hf state, Action.get_bind, ?_⟩
  rw [Action.get_bind, hlooks.seek]

theorem check {test : State → Except BuiltinError α} (hlooks : State.LooksAtStore test) :
    Action.Spares number file offset (Builtin.check test) where
  ok h hrun := by
    obtain ⟨htest, rfl⟩ := check_eq_ok.1 hrun
    exact ⟨h, check_eq_ok.2 ⟨(hlooks.seek _ _ _).trans htest, rfl⟩⟩
  error h hrun := by
    obtain ⟨htest, rfl⟩ := check_eq_error.1 hrun
    exact ⟨h, check_eq_error.2 ⟨(hlooks.seek _ _ _).trans htest, rfl⟩⟩

theorem modifySession (f : Session → Session) :
    Action.Spares number file offset (LineShell.modifySession f : Action ε Unit) where
  ok h hrun := by
    cases modifySession_eq_ok.1 hrun
    exact ⟨h, rfl⟩
  error _ hrun := absurd hrun modifySession_ne_error

end Action.Commutes

variable {streams : Streams}

theorem Builtin.closed_spares (h : streams.Avoid number) :
    Closed (Outputs.ofStreams streams) (Action.Spares number file offset) where
  pure := .pure
  bind hx hf := .bind hx fun _ _ => hf _
  get_bind := .get_bind
  check := .check
  modifySession := .modifySession
  stdout data := .onWorld _ (.write h.stdout data)
  stderr data := .onWorld _ (.write h.stderr data)

namespace Command

theorem spares_emit {sink : Sink} (hsink : sink ≠ .file number) (data : Bytes) (status : Status) :
    Action.Spares number file offset
      (do emit sink data; return status : Action ShellError Status) :=
  .bind (.onWorld _ (.write hsink data)) fun _ _ => .pure status

theorem spares_ofCall (h : streams.Avoid number) (call : Call) :
    Action.Spares number file offset (ofCall call streams) := by
  have hcall : Action.Spares number file offset (call.run (Outputs.ofStreams streams)) :=
    call.run_of_closed (Builtin.closed_spares h)
  have htell (failure : BuiltinError) : Action.Spares number file offset (do
      emit streams.stderr (ShellError.report failure.message)
      return (1 : Status) : Action ShellError Status) :=
    spares_emit h.stderr _ _
  constructor
  · intro state last status hopen hrun
    unfold ofCall at hrun ⊢
    split at hrun
    · next hok =>
      cases hrun
      obtain ⟨hlast, hok'⟩ := hcall.ok hopen hok
      rw [hok']
      exact ⟨hlast, rfl⟩
    · next failure middle herror =>
      obtain ⟨hmiddle, herror'⟩ := hcall.error hopen herror
      rw [herror']
      exact (htell failure).ok hmiddle hrun
  · intro state last e hopen hrun
    unfold ofCall at hrun ⊢
    split at hrun
    · cases hrun
    · next failure middle herror =>
      obtain ⟨hmiddle, herror'⟩ := hcall.error hopen herror
      rw [herror']
      exact (htell failure).error hmiddle hrun

theorem spares_ofBuiltin (h : streams.Avoid number) (builtin : Builtin) (arguments : List Text) :
    Action.Spares number file offset (ofBuiltin builtin arguments streams) := by
  unfold ofBuiltin
  rcases builtin.read arguments with fault | (_ | call)
  · exact spares_emit h.stderr _ _
  · exact spares_emit h.stdout _ _
  · exact spares_ofCall h call

theorem spares_ofProgram (h : streams.Avoid number) (path : Path) (name : Text)
    (arguments : List Text) :
    Action.Spares number file offset (ofProgram path name arguments streams) :=
  .get_bind (fun _ _ _ _ => rfl) fun _ => .onWorld id (Program.spares_start h _ _ _ _)

end Command

namespace Shell

open Command

theorem spares_dispatch (h : streams.Avoid number) (name : Text) (arguments : List Text) :
    Action.Spares number file offset (dispatch Factory.default name arguments streams) := by
  refine .of_choice fun state => ?_
  -- Which command it is does not depend on the open file.
  have hprograms : Factory.ofPrograms (state.seek number offset) name arguments =
      Factory.ofPrograms state name arguments := rfl
  rw [dispatch_default, dispatch_default, hprograms]
  cases Builtin.ofName? name with
  | some builtin => exact ⟨_, spares_ofBuiltin h builtin arguments, rfl, rfl⟩
  | none =>
    cases hfound : Factory.ofPrograms state name arguments with
    | none => exact ⟨_, spares_emit h.stderr _ _, rfl, rfl⟩
    | some command =>
      obtain ⟨path, -, rfl⟩ := Option.map_eq_some_iff.1 hfound
      exact ⟨_, spares_ofProgram h path name arguments, rfl, rfl⟩

theorem spares_runNamed (targets : Redirection.Targets) (name : Text) (arguments : List Text) :
    Action.Spares number file offset (runNamed Factory.default targets name arguments) := by
  refine .get_bind (fun _ _ _ _ => rfl) fun state => ?_
  refine .bind (.onWorld id (.openAll _ targets .ofConsole)) fun {_ _ streams} hopen hrun => ?_
  obtain ⟨world, hopened, -⟩ := onWorld_eq_ok.1 hrun
  have havoid := Redirection.Targets.avoid_of_openAll hopen (Streams.avoid_ofConsole number) hopened
  exact spares_dispatch havoid name arguments

theorem spares_runCommand (command : CommandLine) (record : Bool) :
    Action.Spares number file offset (runCommand Factory.default command record) := by
  refine .get_bind (fun _ _ _ _ => rfl) fun state => ?_
  dsimp only
  split
  · exact .pure 0
  · split
    · exact .bind (.modifySession _) fun _ _ => spares_runNamed _ _ _
    · exact spares_runNamed _ _ _

/-! ## Lines -/

variable {state : State} {shell : Shell}

def LineResult.seek (result : LineResult) (number offset : Nat) : LineResult :=
  { result with state := result.state.seek number offset }

/-- The shell with another offset of an open file. -/
def seek (shell : Shell) (number offset : Nat) : Shell :=
  { shell with state := shell.state.seek number offset }

theorem seek_self (h : shell.state.world.HasOpen number file) :
    shell.seek number file.offset = shell := by
  unfold seek State.seek
  rw [h.seek_self]

theorem runLine_seek (h : state.world.HasOpen number file) (offset : Nat) (line : Text)
    (record : Bool) :
    (runLine Factory.default state line record).state.world.HasOpen number file ∧
      runLine Factory.default (state.seek number offset) line record =
        (runLine Factory.default state line record).seek number offset := by
  have hclose {after : State} (hafter : after.world.HasOpen number file) :
      (closeFiles state after).world.HasOpen number file ∧
        closeFiles (state.seek number offset) (after.seek number offset) =
          (closeFiles state after).seek number offset := by
    refine ⟨hafter.closeFrom h.lt_length, ?_⟩
    unfold closeFiles State.seek
    dsimp only
    rw [World.length_openFiles_seek, World.closeFrom_seek]
  cases hread : CommandLine.read line with
  | blank =>
    rw [runLine_of_blank hread, runLine_of_blank hread]
    exact ⟨h, rfl⟩
  | malformed fault =>
    rw [runLine_of_malformed hread, runLine_of_malformed hread]
    exact ⟨h, rfl⟩
  | command command =>
    have hspares : Action.Spares number file offset (runCommand Factory.default command record) :=
      spares_runCommand command record
    cases hrun : runCommand Factory.default command record state with
    | ok status after =>
      obtain ⟨hafter, hrun'⟩ := hspares.ok h hrun
      obtain ⟨hclosed, hclosed'⟩ := hclose hafter
      rw [runLine_of_runCommand_eq_ok hread hrun, runLine_of_runCommand_eq_ok hread hrun', hclosed']
      exact ⟨hclosed, rfl⟩
    | error error after =>
      obtain ⟨hafter, hrun'⟩ := hspares.error h hrun
      obtain ⟨hclosed, hclosed'⟩ := hclose hafter
      have hfault := (runCommand_eq_error hrun).2
      rw [runLine_of_runCommand_eq_error hread hrun hfault,
        runLine_of_runCommand_eq_error hread hrun' hfault, hclosed']
      exact ⟨hclosed, rfl⟩

/-- A line leaves a file open that was open before, and does the same wherever that file is to be read
next. -/
theorem executeLine_seek (hfactories : shell.factories = Factory.default)
    (h : shell.state.world.HasOpen number file) (offset : Nat) (line : Text) (record : Bool) :
    (shell.executeLine line record).shell.state.world.HasOpen number file ∧
      (shell.seek number offset).executeLine line record =
        { shell.executeLine line record with
          shell := (shell.executeLine line record).shell.seek number offset } := by
  obtain ⟨factories, state, replaying⟩ := shell
  obtain rfl : factories = Factory.default := hfactories
  have hstate : state.world.HasOpen number file := h
  obtain ⟨hfirst, hfirst'⟩ := runLine_seek hstate offset line record
  rw [executeLine_eq, executeLine_eq]
  dsimp only [seek]
  rw [hfirst']
  dsimp only [LineResult.seek]
  cases (runLine Factory.default state line record).replay with
  | none => exact ⟨hfirst, rfl⟩
  | some entry =>
    cases replaying with
    | true => exact ⟨hfirst, rfl⟩
    | false =>
      obtain ⟨hsecond, hsecond'⟩ := runLine_seek hfirst offset entry false
      dsimp only
      rw [hsecond']
      exact ⟨hsecond, rfl⟩

end Shell

end LineShell
