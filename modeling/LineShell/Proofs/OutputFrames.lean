import LineShell.Proofs.Actions

/-!
# Writing to two outputs

A command writes to its two outputs and nowhere else.  `World.Frame` says what this leaves alone:
the output of the console unless it is one of the two, likewise the diagnostics, and whether a sink
takes what is written to it.  The last point needs an argument, since a write changes the file store:
it gives a file other contents and never puts a device in its place.

`Action.WritesTo` lifts this to actions, with one rule for each way to build them.
-/

namespace LineShell

open LineShell.Action

namespace World

variable {world after : World} {sink : Sink} {data : Bytes} {number : Nat}

/-! ## Writing to files -/

/-- What the open file with a number is. -/
def openNode? (world : World) (number : Nat) : Option Node :=
  (world.openFiles[number]?).bind fun file => world.store.find? file.location

/-- A write to an open file does nothing, gives a file other contents, or meets the full device. -/
theorem writeFile_cases (world : World) (number : Nat) (data : Bytes) :
    world.writeFile number data = .ok world ∨
      (∃ location content content' permissions offset,
        world.store.find? location = some (.file content permissions) ∧
          world.writeFile number data =
            .ok ({ world with
              store := world.store.put location (.file content' permissions) }.seek number offset)) ∨
        world.openNode? number = some .fullDevice ∧
          world.writeFile number data = .error (.system .noSpaceLeft) := by
  unfold writeFile
  split
  · exact .inl rfl
  · next file hopen =>
    split
    · next content permissions hfile =>
      split
      · exact .inl rfl
      · exact .inr (.inl ⟨_, content, _, permissions, _, hfile, rfl⟩)
    · next hfull =>
      split
      · exact .inl rfl
      · exact .inr (.inr ⟨Option.bind_eq_some_iff.2 ⟨file, hopen, hfull⟩, rfl⟩)
    · exact .inl rfl

theorem console_writeFile (h : world.writeFile number data = .ok after) :
    after.console = world.console := by
  rcases writeFile_cases world number data with
    hsame | ⟨_, _, _, _, _, -, hwritten⟩ | ⟨-, hrefused⟩
  · cases hsame.symm.trans h
    rfl
  · cases hwritten.symm.trans h
    rfl
  · cases hrefused.symm.trans h

theorem openNode?_seek (world : World) (number offset other : Nat) :
    (world.seek number offset).openNode? other = world.openNode? other := by
  unfold openNode? seek
  rw [List.getElem?_modify]
  by_cases h : number = other
  · cases world.openFiles[other]? <;> simp [h]
  · cases world.openFiles[other]? <;> simp [h]

/-- A file with other contents is no device. -/
theorem openNode?_of_put {location : Location} {content content' : Content}
    {permissions : Permissions} (hfile : world.store.find? location = some (.file content permissions))
    (h : { world with store := world.store.put location (.file content' permissions) }.openNode?
      number = some .fullDevice) : world.openNode? number = some .fullDevice := by
  obtain ⟨file, hopen, hnode⟩ := Option.bind_eq_some_iff.1 h
  refine Option.bind_eq_some_iff.2 ⟨file, hopen, ?_⟩
  by_cases hsame : location = file.location
  · subst hsame
    have hnotRoot : file.location ≠ [] := by
      intro hroot
      rw [hroot] at hfile
      cases hfile
    rw [FileStore.find?_put hnotRoot, if_pos rfl] at hnode
    cases hnode
  · rwa [FileStore.find?_put_of_ne hsame] at hnode

/-- No write makes a full device of an open file. -/
theorem openNode?_of_writeFile {other : Nat} (h : world.writeFile number data = .ok after)
    (hfull : after.openNode? other = some .fullDevice) :
    world.openNode? other = some .fullDevice := by
  rcases writeFile_cases world number data with
    hsame | ⟨_, _, _, _, _, hfile, hwritten⟩ | ⟨-, hrefused⟩
  · cases hsame.symm.trans h
    exact hfull
  · cases hwritten.symm.trans h
    rw [openNode?_seek] at hfull
    exact openNode?_of_put hfile hfull
  · cases hrefused.symm.trans h

/-! ## Sinks that take everything -/

/-- Every write to the sink succeeds. -/
def Accepts (world : World) (sink : Sink) : Prop :=
  ∀ data, ∃ after, world.write sink data = .ok after

theorem Accepts.write_ne_error {cause : IoError} (h : world.Accepts sink) :
    world.write sink data ≠ .error cause := by
  intro hrefused
  obtain ⟨after, hwrite⟩ := h data
  cases hwrite.symm.trans hrefused

/-- Only the full device refuses. -/
theorem accepts_iff :
    world.Accepts sink ↔
      ∀ number, sink = .file number → world.openNode? number ≠ some .fullDevice := by
  constructor
  · rintro h number rfl hfull
    obtain ⟨file, hopen, hnode⟩ := Option.bind_eq_some_iff.1 hfull
    have hrefused : world.write (.file number) [0] = .error (.system .noSpaceLeft) := by
      change world.writeFile number [0] = _
      unfold writeFile
      rw [hopen]
      dsimp only
      rw [hnode]
      rfl
    exact h.write_ne_error hrefused
  · intro h data
    cases sink with
    | output | diagnostics | nothing => exact ⟨_, rfl⟩
    | file number =>
      rcases writeFile_cases world number data with
        hsame | ⟨_, _, _, _, _, -, hwritten⟩ | ⟨hfull, -⟩
      · exact ⟨_, hsame⟩
      · exact ⟨_, hwritten⟩
      · exact absurd hfull (h number rfl)

theorem Accepts.of_openNode? (h : world.Accepts sink)
    (hfull : ∀ number, after.openNode? number = some .fullDevice →
      world.openNode? number = some .fullDevice) : after.Accepts sink :=
  accepts_iff.2 fun number hsink hafter => accepts_iff.1 h number hsink (hfull number hafter)

/-! ## Frames -/

/-- Nothing has happened between the worlds but reads, and writes to the two outputs. -/
structure Frame (streams : Streams) (before after : World) : Prop where
  output : streams.stdout ≠ .output → streams.stderr ≠ .output →
    after.console.output = before.console.output
  diagnostics : streams.stdout ≠ .diagnostics → streams.stderr ≠ .diagnostics →
    after.console.diagnostics = before.console.diagnostics
  accepts : ∀ {sink : Sink}, before.Accepts sink → after.Accepts sink

namespace Frame

variable {streams : Streams} {first middle last : World}

theorem refl (streams : Streams) (world : World) : Frame streams world world where
  output _ _ := rfl
  diagnostics _ _ := rfl
  accepts h := h

theorem trans (h : Frame streams first middle) (h' : Frame streams middle last) :
    Frame streams first last where
  output hout herr := (h'.output hout herr).trans (h.output hout herr)
  diagnostics hout herr := (h'.diagnostics hout herr).trans (h.diagnostics hout herr)
  accepts haccepts := h'.accepts (h.accepts haccepts)

theorem write (h : world.write sink data = .ok after)
    (hsink : sink = streams.stdout ∨ sink = streams.stderr) : Frame streams world after := by
  cases sink with
  | output =>
    cases h
    exact
      { output := fun hout herr => (hsink.elim hout.symm herr.symm).elim
        diagnostics := fun _ _ => rfl
        accepts := fun haccepts => haccepts.of_openNode? fun _ hfull => hfull }
  | diagnostics =>
    cases h
    exact
      { output := fun _ _ => rfl
        diagnostics := fun hout herr => (hsink.elim hout.symm herr.symm).elim
        accepts := fun haccepts => haccepts.of_openNode? fun _ hfull => hfull }
  | nothing =>
    cases h
    exact refl streams world
  | file number =>
    exact
      { output := fun _ _ => by rw [console_writeFile h]
        diagnostics := fun _ _ => by rw [console_writeFile h]
        accepts := fun haccepts => haccepts.of_openNode? fun _ => openNode?_of_writeFile h }

theorem tryWrite (world : World) (data : Bytes)
    (hsink : sink = streams.stdout ∨ sink = streams.stderr) :
    Frame streams world (world.tryWrite sink data) := by
  unfold World.tryWrite
  split
  · next hwrite => exact write hwrite hsink
  · exact refl streams world

/-- Reading takes input from the console or moves on in a file. -/
theorem read (streams : Streams) {source : Source} {limit : Option Nat}
    (h : world.read source limit = .ok (data, after)) : Frame streams world after := by
  cases source with
  | console =>
    cases h
    exact
      { output := fun _ _ => rfl
        diagnostics := fun _ _ => rfl
        accepts := fun haccepts => haccepts.of_openNode? fun _ hfull => hfull }
  | nothing =>
    cases h
    exact refl streams world
  | file number =>
    unfold World.read at h
    dsimp only at h
    split at h
    · cases h
      exact refl streams world
    · next file _ =>
      cases hrest : world.restOfFile file limit with
      | error cause =>
        rw [hrest] at h
        cases h
      | ok rest =>
        rw [hrest] at h
        cases h
        exact
          { output := fun _ _ => rfl
            diagnostics := fun _ _ => rfl
            accepts := fun haccepts =>
              haccepts.of_openNode? fun _ hfull => openNode?_seek _ _ _ _ ▸ hfull }

/-- In place of the console a program may be given nothing at all. -/
theorem of_forProgram {kind : ConsoleKind} (h : Frame (streams.forProgram kind) first last) :
    Frame streams first last := by
  have hhide (sink console : Sink) (hsink : sink ≠ console) (hconsole : console ≠ .nothing) :
      Streams.forProgram.hide sink ≠ console := by
    unfold Streams.forProgram.hide
    split
    · exact hconsole.symm
    · exact hconsole.symm
    · exact hsink
  cases kind with
  | inherited => exact h
  | captured =>
    exact
      { output := fun hout herr =>
          h.output (hhide _ _ hout (by decide)) (hhide _ _ herr (by decide))
        diagnostics := fun hout herr =>
          h.diagnostics (hhide _ _ hout (by decide)) (hhide _ _ herr (by decide))
        accepts := h.accepts }

end Frame

end World

/-! ## Actions that write to two outputs -/

/-- However it ends, the action has only read, and written to the two outputs. -/
structure Action.WritesTo {ε α : Type} (streams : Streams) (x : Action ε α) : Prop where
  ok : ∀ {state last : State} {a : α}, x state = .ok a last →
    World.Frame streams state.world last.world
  error : ∀ {state last : State} {e : ε}, x state = .error e last →
    World.Frame streams state.world last.world

namespace Action.WritesTo

variable {ε α β : Type} {streams : Streams}

theorem pure (a : α) : WritesTo streams (Pure.pure a : Action ε α) where
  ok h := (pure_eq_ok.1 h).2 ▸ .refl streams _
  error h := absurd h pure_ne_error

theorem get : WritesTo streams (MonadState.get : Action ε State) where
  ok h := (get_eq_ok.1 h).2 ▸ .refl streams _
  error h := absurd h get_ne_error

theorem check (test : State → Except BuiltinError α) : WritesTo streams (Builtin.check test) where
  ok h := (check_eq_ok.1 h).2 ▸ .refl streams _
  error h := (check_eq_error.1 h).2 ▸ .refl streams _

theorem modifySession (f : Session → Session) :
    WritesTo streams (LineShell.modifySession f : Action ε Unit) where
  ok h := modifySession_eq_ok.1 h ▸ .refl streams _
  error h := absurd h modifySession_ne_error

theorem bind {x : Action ε α} {f : α → Action ε β} (hx : WritesTo streams x)
    (hf : ∀ a, WritesTo streams (f a)) : WritesTo streams (x >>= f) where
  ok h := by
    obtain ⟨a, middle, hfirst, hrest⟩ := bind_eq_ok.1 h
    exact (hx.ok hfirst).trans ((hf a).ok hrest)
  error h := by
    rcases bind_eq_error.1 h with hfirst | ⟨a, middle, hfirst, hrest⟩
    · exact hx.error hfirst
    · exact (hx.ok hfirst).trans ((hf a).error hrest)

/-- Writing to one of the outputs. -/
theorem write (failure : IoError → ε) {sink : Sink} (data : Bytes)
    (hsink : sink = streams.stdout ∨ sink = streams.stderr) :
    WritesTo streams (State.onWorld failure (WorldAction.write sink data)) where
  ok h := by
    obtain ⟨world, hwrite, rfl⟩ := onWorld_eq_ok.1 h
    exact .write (write_eq_ok.1 hwrite) hsink
  error h := by
    obtain ⟨cause, world, hwrite, -, rfl⟩ := onWorld_eq_error.1 h
    obtain ⟨-, rfl⟩ := write_eq_error.1 hwrite
    exact .refl streams _

end Action.WritesTo

end LineShell
