import LineShell.Proofs.Runs

/-!
# What opening the targets leaves behind

The targets of a line are opened one after the other, and each opening meets the files as the ones
before it have left them.  `Redirection.Opened` is such a sequence of openings, and
`Redirection.Performs` says of an action that it is one, which stops at the first opening that is
refused; there is one rule for each way to build the action.

Several openings of a location for writing come to the same as one: a missing file is created, and a
regular file is emptied if one of the openings truncates.  Nothing else changes
(`Redirection.Opened.find?`, `Redirection.Footprint`).
-/

namespace LineShell

open LineShell.Action

/-! ## One opening -/

/-- What is at a location after it was opened for writing in these modes. -/
def Node.afterOpenings (modes : List Redirection.Mode) (node : Option Node) : Option Node :=
  if modes = [] then node
  else
    match node with
    | none => some (.file .empty .ofNewFile)
    | some (.file content permissions) =>
      some (.file (if .truncate ∈ modes then .empty else content) permissions)
    | some node => some node

/-- Openings one after the other. -/
theorem Node.afterOpenings_cons (mode : Redirection.Mode) (modes : List Redirection.Mode)
    (node : Option Node) :
    afterOpenings (mode :: modes) node = afterOpenings modes (afterOpenings [mode] node) := by
  unfold afterOpenings
  rw [if_neg (List.cons_ne_nil mode modes), if_neg (List.cons_ne_nil mode [])]
  by_cases hmodes : modes = []
  · rw [if_pos hmodes, hmodes]
  rw [if_neg hmodes]
  rcases node with _ | _ | ⟨content, permissions⟩ | _ | _ | _ | _
  -- The file that the first opening creates or empties stays empty.
  · simp
  · rfl
  · cases mode <;> simp
  all_goals rfl

namespace FileStore

variable {store after : FileStore} {location : Location} {mode : Redirection.Mode}

/-- What is opened for writing is not the root. -/
theorem ne_nil_of_openAt (h : store.openAt location mode = .ok after) : location ≠ [] := by
  rintro rfl
  cases h

/-- An opening for writing puts a node at the location, or the node there stays as it is. -/
theorem openAt_eq_ok (h : store.openAt location mode = .ok after) :
    ∃ node, Node.afterOpenings [mode] (store.find? location) = some node ∧
      (after = store.put location node ∨ after = store ∧ store.find? location = some node) := by
  unfold openAt at h
  cases hfind : store.find? location with
  | none =>
    rw [hfind] at h
    cases h
    exact ⟨_, rfl, .inl rfl⟩
  | some node =>
    rw [hfind] at h
    cases node with
    | file content permissions =>
      dsimp only at h
      split at h
      · cases h
      cases mode with
      | truncate =>
        cases h
        exact ⟨_, rfl, .inl rfl⟩
      | append =>
        cases h
        exact ⟨_, rfl, .inr ⟨rfl, rfl⟩⟩
    | nullDevice | fullDevice =>
      cases h
      exact ⟨_, rfl, .inr ⟨rfl, rfl⟩⟩
    | directory | link _ | program _ => cases h

/-- It has its effect on the location and none on others. -/
theorem find?_of_openAt (h : store.openAt location mode = .ok after) (other : Location) :
    after.find? other =
      if location = other then Node.afterOpenings [mode] (store.find? other)
      else store.find? other := by
  obtain ⟨node, hnode, hafter⟩ := openAt_eq_ok h
  split
  · next hother =>
    subst hother
    rw [hnode]
    rcases hafter with rfl | ⟨rfl, hfind⟩
    · rw [find?_put (ne_nil_of_openAt h), if_pos rfl]
    · exact hfind
  · next hother =>
    rcases hafter with rfl | ⟨rfl, -⟩
    · exact find?_put_of_ne hother
    · rfl

theorem openAt_of_openForWriting {path : Path}
    (h : store.openForWriting path mode = .ok (location, after)) :
    store.openAt location mode = .ok after := by
  unfold openForWriting at h
  obtain ⟨_, -, h⟩ := except_bind_eq_ok.1 h
  dsimp only at h
  split at h
  · cases h
  obtain ⟨found, -, h⟩ := except_bind_eq_ok.1 h
  obtain ⟨opened, hopened, h⟩ := except_bind_eq_ok.1 h
  cases h
  exact mapError_eq_ok.1 hopened

end FileStore

namespace Redirection

/-- A file that is to be opened. -/
inductive Opening where
  | input (path : Path)
  | output (path : Path) (mode : Mode)
  deriving DecidableEq, Repr

namespace Opening

def path : Opening → Path
  | input path | output path _ => path

/-- The location that an opening leads to, and the store after it. -/
def inStore (store : FileStore) : Opening → Except IoError (Location × FileStore)
  | input path => (store.openForReading path).map (·, store)
  | output path mode => store.openForWriting path mode

/-- The open file that an opening adds. -/
def file (location : Location) : Opening → OpenFile
  | input _ => { location }
  | output _ mode => { location, writing := true, appending := decide (mode = .append) }

/-- Opening for reading changes nothing. -/
theorem eq_of_inStore_input {store last : FileStore} {location : Location} {path : Path}
    (h : (input path).inStore store = .ok (location, last)) : last = store := by
  change (store.openForReading path).map (·, store) = _ at h
  obtain ⟨found, -, hfound⟩ := except_map_eq_ok.1 h
  cases hfound
  rfl

end Opening

/-- The openings that targets ask for, in their order. -/
def Targets.openings (targets : Targets) (environment : Environment) : List Opening :=
  (targets.stdin.toList.map fun path => .input (environment.resolve path)) ++
    (targets.stdout.toList ++ targets.stderr.toList ++ targets.combined.toList).map
      fun target => .output (environment.resolve target.path) target.mode

end Redirection

namespace World

open Redirection

/-- The world after an opening that has led to a location and left a store behind. -/
def withOpened (world : World) (opening : Opening) (location : Location) (store : FileStore) :
    World :=
  { world with store, openFiles := world.openFiles ++ [opening.file location] }

theorem openInput_eq (world : World) (path : Path) :
    world.openInput path = ((Opening.input path).inStore world.store).map fun found =>
      (.file world.openFiles.length, world.withOpened (.input path) found.1 found.2) := by
  change _ = ((world.store.openForReading path).map (·, world.store)).map _
  unfold openInput
  cases world.store.openForReading path <;> rfl

theorem openOutput_eq (world : World) (path : Path) (mode : Mode) :
    world.openOutput path mode = ((Opening.output path mode).inStore world.store).map fun found =>
      (.file world.openFiles.length, world.withOpened (.output path mode) found.1 found.2) := by
  change _ = (world.store.openForWriting path mode).map _
  unfold openOutput
  cases world.store.openForWriting path mode <;> rfl

end World

namespace Redirection

/-! ## Sequences of openings -/

/-- The openings have been done, each with the location that it led to. -/
inductive Opened : World → List (Opening × Location) → World → Prop
  | nil (world : World) : Opened world [] world
  | cons {world after : World} {opening : Opening} {location : Location} {store : FileStore}
      {later : List (Opening × Location)}
      (first : opening.inStore world.store = .ok (location, store))
      (rest : Opened (world.withOpened opening location store) later after) :
      Opened world ((opening, location) :: later) after

/-- The modes in which a location was opened for writing. -/
def modesAt (location : Location) : List (Opening × Location) → List Mode
  | [] => []
  | (.input _, _) :: later => modesAt location later
  | (.output _ mode, found) :: later =>
    if found = location then mode :: modesAt location later else modesAt location later

variable {world middle after : World} {front back done : List (Opening × Location)}

theorem Opened.append (hfront : Opened world front middle) (hback : Opened middle back after) :
    Opened world (front ++ back) after := by
  induction hfront with
  | nil => exact hback
  | cons first _ ih => exact .cons first (ih hback)

theorem Opened.console (h : Opened world done after) : after.console = world.console := by
  induction h with
  | nil => rfl
  | cons _ _ ih => exact ih

theorem Opened.openFiles (h : Opened world done after) :
    after.openFiles = world.openFiles ++ done.map fun (opening, location) => opening.file location := by
  induction h with
  | nil => exact (List.append_nil _).symm
  | cons _ _ ih =>
    rw [ih, World.withOpened, List.append_assoc]
    rfl

/-- What is at a location after the openings depends on the modes in which it was opened. -/
theorem Opened.find? (h : Opened world done after) (location : Location) :
    after.store.find? location =
      Node.afterOpenings (modesAt location done) (world.store.find? location) := by
  induction h with
  | nil => rfl
  | @cons world after opening found store later first _ ih =>
    rw [ih]
    cases opening with
    | input path =>
      rw [World.withOpened, Opening.eq_of_inStore_input first]
      rfl
    | output path mode =>
      rw [World.withOpened, FileStore.find?_of_openAt (FileStore.openAt_of_openForWriting first),
        modesAt]
      split
      · exact (Node.afterOpenings_cons _ _ _).symm
      · rfl

/-! ## Actions that open files -/

/-- The openings have been done up to one that was refused. -/
inductive Stopped (openings : List Opening) (world : World) : ShellError → World → Prop
  | intro {done : List (Opening × Location)} {failed : Opening} {later : List Opening}
      {cause : IoError} {after : World}
      (order : openings = done.map Prod.fst ++ failed :: later) (opened : Opened world done after)
      (refused : failed.inStore after.store = .error cause) :
      Stopped openings world (.redirection failed.path cause) after

/-- The action does these openings in order, until one is refused. -/
structure Performs {α : Type} (openings : List Opening) (x : WorldAction ShellError α) : Prop where
  ok : ∀ {world after : World} {a : α}, x world = .ok a after →
    ∃ done, done.map Prod.fst = openings ∧ Opened world done after
  error : ∀ {world after : World} {e : ShellError}, x world = .error e after →
    Stopped openings world e after

namespace Performs

variable {α β : Type}

theorem pure (a : α) : Performs [] (Pure.pure a : WorldAction ShellError α) where
  ok {world after b} h := by
    obtain ⟨-, rfl⟩ := pure_eq_ok.1 h
    exact ⟨[], rfl, .nil world⟩
  error h := absurd h pure_ne_error

theorem bind {front back : List Opening} {x : WorldAction ShellError α}
    {f : α → WorldAction ShellError β} (hx : Performs front x) (hf : ∀ a, Performs back (f a)) :
    Performs (front ++ back) (x >>= f) where
  ok h := by
    obtain ⟨a, middle, hfirst, hrest⟩ := bind_eq_ok.1 h
    obtain ⟨done, rfl, hdone⟩ := hx.ok hfirst
    obtain ⟨more, rfl, hmore⟩ := (hf a).ok hrest
    exact ⟨done ++ more, List.map_append, hdone.append hmore⟩
  error h := by
    rcases bind_eq_error.1 h with hfirst | ⟨a, middle, hfirst, hrest⟩
    · cases hx.error hfirst with
      | intro order opened refused =>
        exact .intro (order.symm ▸ List.append_assoc _ _ _) opened refused
    · obtain ⟨done, rfl, hdone⟩ := hx.ok hfirst
      cases (hf a).error hrest with
      | intro order opened refused =>
        have horder := congrArg (done.map Prod.fst ++ ·) order
        rw [← List.append_assoc, ← List.map_append] at horder
        exact .intro horder (hdone.append opened) refused

/-- A single opening. -/
theorem one {o : Opening} {handle : World → α} {step : World → Except IoError (α × World)}
    (hstep : ∀ world, step world = (o.inStore world.store).map fun found =>
      (handle world, world.withOpened o found.1 found.2)) :
    Performs [o] (opening o.path step) where
  ok {world after a} h := by
    obtain ⟨⟨location, store⟩, hfound, hafter⟩ :=
      except_map_eq_ok.1 ((hstep world).symm.trans (opening_eq_ok h))
    cases hafter
    exact ⟨[(o, location)], rfl, .cons hfound (.nil _)⟩
  error {world after e} h := by
    obtain ⟨cause, hrefused, rfl, rfl⟩ := opening_eq_error h
    have horder : [o] = ([] : List (Opening × Location)).map Prod.fst ++ o :: [] := rfl
    exact .intro horder (.nil after) (except_map_eq_error.1 ((hstep after).symm.trans hrefused))

theorem openInput (environment : Environment) (path : Option Text) (source : Source) :
    Performs (path.toList.map fun path => .input (environment.resolve path))
      (Redirection.openInput environment path source) := by
  cases path with
  | none => exact pure source
  | some path => exact one (World.openInput_eq · (environment.resolve path))

theorem openOutput (environment : Environment) (target : Option Target) (sink : Sink) :
    Performs (target.toList.map fun target => .output (environment.resolve target.path) target.mode)
      (Redirection.openOutput environment target sink) := by
  cases target with
  | none => exact pure sink
  | some target => exact one (World.openOutput_eq · (environment.resolve target.path) target.mode)

end Performs

theorem Targets.performs_openAll (targets : Targets) (environment : Environment)
    (streams : Streams) :
    Performs (targets.openings environment) (targets.openAll environment streams) := by
  unfold Targets.openings Targets.openAll
  rw [List.map_append, List.map_append, List.append_assoc]
  refine .bind (.openInput environment _ _) fun stdin => .bind (.openOutput environment _ _)
    fun stdout => .bind (.openOutput environment _ _) fun stderr => ?_
  cases targets.combined with
  | none => exact .pure _
  | some target => exact (Performs.openOutput environment (some target) _).bind fun _ => .pure _

/-- The only input among the openings is the first one. -/
theorem Targets.eq_nil_of_openings {targets : Targets} {environment : Environment} {path : Path}
    {before behind : List Opening}
    (h : targets.openings environment = before ++ .input path :: behind) : before = [] := by
  have houtputs : .input path ∉ (targets.openings environment).tail := by
    unfold openings
    cases targets.stdin with
    | none =>
      intro hmem
      simpa using List.mem_of_mem_tail hmem
    | some first => simp
  cases before with
  | nil => rfl
  | cons first before =>
    rw [h] at houtputs
    exact absurd (List.mem_append_right before (List.mem_cons_self ..)) houtputs

/-! ## The footprint -/

/-- How the openings have changed the files. -/
structure Footprint (done : List (Opening × Location)) (before after : FileStore) : Prop where
  unchanged : ∀ location, modesAt location done = [] →
    after.find? location = before.find? location
  created : ∀ location, modesAt location done ≠ [] → before.find? location = none →
    after.find? location = some (.file .empty .ofNewFile)
  emptied : ∀ location content permissions, .truncate ∈ modesAt location done →
    before.find? location = some (.file content permissions) →
      after.find? location = some (.file .empty permissions)
  /-- A file that was opened for appending only, or a device. -/
  kept : ∀ location node, before.find? location = some node →
    (.truncate ∉ modesAt location done ∨ ∀ content permissions, node ≠ .file content permissions) →
      after.find? location = some node

theorem Opened.footprint (h : Opened world done after) :
    Footprint done world.store after.store where
  unchanged location hmodes := by
    rw [h.find?, hmodes]
    rfl
  created location hmodes hbefore := by
    rw [h.find?, hbefore]
    exact if_neg hmodes
  emptied location content permissions htruncate hbefore := by
    rw [h.find?, hbefore]
    unfold Node.afterOpenings
    rw [if_neg (List.ne_nil_of_mem htruncate)]
    dsimp only
    rw [if_pos htruncate]
  kept location node hbefore hkept := by
    rw [h.find?, hbefore]
    unfold Node.afterOpenings
    split
    · rfl
    cases node with
    | file content permissions =>
      dsimp only
      rw [if_neg (hkept.resolve_right fun hno => hno _ _ rfl)]
    | directory | link _ | program _ | nullDevice | fullDevice => rfl

end Redirection

namespace Shell

variable {factories : List Factory} {state : State} {line : Text} {record : Bool}
  {command : CommandLine}

/-! ## Lines -/

/-- A line without words opens nothing, whatever its targets are. -/
theorem runLine_of_arguments_eq_nil (hread : CommandLine.read line = .command command)
    (hqueue : state.session.pendingReplay = none)
    (hwords : (command.expand state.session.scope).arguments = []) :
    runLine factories state line record =
      { status := 0, state := keepStatus 0 state, ran := [Text.significant line] } := by
  rw [runLine_of_runCommand_eq_ok hread (runCommand_of_arguments_eq_nil hwords),
    closeFiles_of_openFiles (List.append_nil _).symm, finish_of_pendingReplay_eq_none hqueue,
    CommandLine.text_of_read hread]

/-- A line with a target that cannot be opened is recorded and reported, and of the world before it
has changed what the openings have changed in the files. -/
theorem runLine_of_openAll_error {name : Text} {arguments : List Text} {error : ShellError}
    {after : World} (hread : CommandLine.read line = .command command)
    (hqueue : state.session.pendingReplay = none)
    (hwords : (command.expand state.session.scope).arguments = name :: arguments)
    (hopen : (command.expand state.session.scope).targets.openAll state.session.environment
      .ofConsole state.world = .error error after) :
    runLine factories state line record =
      { status := 1
        state := keepStatus 1 (report error
          { session := startingSession command record state.session
            world := { state.world with store := after.store } })
        ran := [Text.significant line] } := by
  cases (Redirection.Targets.performs_openAll _ _ _).error hopen with
  | intro order opened refused =>
    have hstarting : (startingSession command record state.session).pendingReplay = none :=
      (pendingReplay_startingSession command record state.session).trans hqueue
    have hworld : { after with openFiles := state.world.openFiles } =
        { state.world with store := after.store } :=
      congrArg (World.mk after.store state.world.openFiles) opened.console
    rw [runLine_of_runCommand_eq_error hread (runCommand_of_openAll_error hwords hopen) rfl,
      closeFiles_of_openFiles opened.openFiles, finish_of_pendingReplay_eq_none hstarting,
      CommandLine.text_of_read hread, hworld]
    rfl

open Redirection in
/-- What opening the targets changes.  The openings are done in order, each with its effect on the
location that it leads to: if all succeed, then all, and otherwise those before the first one that is
refused.  A line without words does none of them.  A line with words does them before it looks for a
command; if one is refused, there is no command, whatever the factories are, the status is 1, and what
has changed is the status, the recorded line, the report, and the files that were opened for writing. -/
theorem openings_have_footprint :
    (∀ (targets : Targets) (environment : Environment) (streams opened : Streams)
        (world after : World), targets.openAll environment streams world = .ok opened after →
      ∃ done, done.map Prod.fst = targets.openings environment ∧ Opened world done after ∧
        Footprint done world.store after.store) ∧
    (∀ (targets : Targets) (environment : Environment) (streams : Streams) (world after : World)
        (error : ShellError), targets.openAll environment streams world = .error error after →
      ∃ done failed later cause,
        targets.openings environment = done.map Prod.fst ++ failed :: later ∧
        Opened world done after ∧ failed.inStore after.store = .error cause ∧
        error = .redirection failed.path cause ∧ Footprint done world.store after.store ∧
        ∀ path, failed = .input path → after = world) ∧
    ∀ (shell : Shell) (line : Text) (record : Bool) (command : CommandLine),
      CommandLine.read line = .command command → shell.state.session.pendingReplay = none →
      let session := shell.state.session
      let world := shell.state.world
      let expanded := command.expand session.scope
      (expanded.arguments = [] →
        shell.executeLine line record =
          { status := 0
            shell := { shell with state := keepStatus 0 shell.state }
            ran := [Text.significant line] }) ∧
      ∀ name arguments, expanded.arguments = name :: arguments →
        let recorded := if record then recordLine (Text.significant line) name session else session
        (∀ streams opened,
          expanded.targets.openAll session.environment .ofConsole world = .ok streams opened →
            runCommand shell.factories command record shell.state =
              dispatch shell.factories name arguments streams ⟨recorded, opened⟩) ∧
        ∀ error after,
          expanded.targets.openAll session.environment .ofConsole world = .error error after →
            shell.executeLine line record =
              { status := 1
                shell :=
                  { shell with
                    state := keepStatus 1
                      (report error ⟨recorded, { world with store := after.store }⟩) }
                ran := [Text.significant line] } := by
  refine ⟨?_, ?_, ?_⟩
  · intro targets environment streams opened world after hopen
    obtain ⟨done, horder, hdone⟩ := (targets.performs_openAll environment streams).ok hopen
    exact ⟨done, horder, hdone, hdone.footprint⟩
  · intro targets environment streams world after error hopen
    cases (targets.performs_openAll environment streams).error hopen with
    | @intro done failed later cause _ order opened refused =>
      refine ⟨done, failed, later, cause, order, opened, refused, rfl, opened.footprint, ?_⟩
      rintro path rfl
      obtain rfl : done = [] := List.map_eq_nil_iff.1 (Targets.eq_nil_of_openings order)
      cases opened
      rfl
  · intro shell line record command hread hqueue session world expanded
    refine ⟨fun hwords => ?_, fun name arguments hwords => ?_⟩
    · have hrun : runLine shell.factories shell.state line record = _ :=
        runLine_of_arguments_eq_nil hread hqueue hwords
      rw [executeLine_of_replay_eq_none (congrArg LineResult.replay hrun), hrun]
      rfl
    · intro recorded
      have hrecorded : recorded = startingSession command record session := by
        unfold startingSession
        rw [hwords, CommandLine.text_of_read hread]
      rw [hrecorded]
      refine ⟨fun streams opened hopen => runCommand_of_openAll hwords hopen,
        fun error after hopen => ?_⟩
      have hrun : runLine shell.factories shell.state line record = _ :=
        runLine_of_openAll_error hread hqueue hwords hopen
      rw [executeLine_of_replay_eq_none (congrArg LineResult.replay hrun), hrun]
      rfl

/-- A shell in a directory with a file and a link to it. -/
def amongFiles : Shell :=
  let store := FileStore.empty.put [Path.ofText "log".toList] (.file (.ofBytes [65]) .ofNewFile)
  fresh { directory := [Path.slash] }
    { store := store.put [Path.ofText "link".toList] (.link (Path.ofText "log".toList))
      console := { kind := .captured } }

open Redirection in
/-- The file behind the link is emptied before the second target is refused.  The same line without
words leaves it alone, and a target for appending would have. -/
theorem openings_have_footprint_link :
    let session := amongFiles.state.session
    let world := amongFiles.state.world
    let log : Location := [Path.ofText "log".toList]
    let targets : Targets :=
      { stdout := some ⟨"link".toList, .truncate⟩, stderr := some ⟨"no/file".toList, .truncate⟩ }
    let refused := amongFiles.executeLine "nosuch > link 2> no/file".toList true
    (refused.status = 1 ∧
      refused.shell.state.world.store.find? log = some (.file .empty .ofNewFile) ∧
      ∃ done failed later,
        targets.openings session.environment = done.map Prod.fst ++ failed :: later ∧
          Footprint done world.store refused.shell.state.world.store) ∧
    (amongFiles.executeLine "$none > link 2> no/file".toList true).shell.state.world = world ∧
    ∃ done after,
      Targets.openings { stdout := some ⟨"link".toList, .append⟩ } session.environment =
          done.map Prod.fst ∧
        Footprint done world.store after ∧
        after.find? log = some (.file (.ofBytes [65]) .ofNewFile) := by
  intro session world log targets refused
  obtain ⟨hopened, hstopped, hlines⟩ := openings_have_footprint
  refine ⟨?_, ?_, ?_⟩
  · let line : Text := "nosuch > link 2> no/file".toList
    let command : CommandLine := { text := line, words := ["nosuch".toList], targets }
    let error : ShellError := .redirection (Path.ofText "/no/file".toList) (.system .noSuchEntry)
    let after : World :=
      { world with
        store := world.store.put log (.file .empty .ofNewFile)
        openFiles := [{ location := log, writing := true }] }
    have hread : CommandLine.read line = .command command := by decide +kernel
    have hwords : (command.expand session.scope).arguments = ["nosuch".toList] := by decide +kernel
    have htargets : (command.expand session.scope).targets = targets := by decide +kernel
    have hopen : targets.openAll session.environment .ofConsole world = .error error after := by
      decide +kernel
    have hrefused : refused = _ :=
      ((hlines amongFiles line true command hread rfl).2 _ _ hwords).2 error after
        (htargets.symm ▸ hopen)
    obtain ⟨done, failed, later, _, horder, -, -, -, hfootprint, -⟩ :=
      hstopped targets session.environment .ofConsole world after error hopen
    rw [hrefused]
    exact ⟨rfl, by decide +kernel, done, failed, later, horder, hfootprint⟩
  · let line : Text := "$none > link 2> no/file".toList
    let command : CommandLine := { text := line, words := ["$none".toList], targets }
    have hread : CommandLine.read line = .command command := by decide +kernel
    have hwords : (command.expand session.scope).arguments = [] := by decide +kernel
    rw [(hlines amongFiles line true command hread rfl).1 hwords]
    rfl
  · let appending : Targets := { stdout := some ⟨"link".toList, .append⟩ }
    let after : World :=
      { world with openFiles := [{ location := log, writing := true, appending := true }] }
    have hopen : appending.openAll session.environment .ofConsole world =
        .ok ⟨.console, .file 0, .diagnostics⟩ after := by
      decide +kernel
    obtain ⟨done, horder, -, hfootprint⟩ :=
      hopened appending session.environment .ofConsole _ world after hopen
    exact ⟨done, after.store, horder.symm, hfootprint, by decide +kernel⟩

end Shell

end LineShell
