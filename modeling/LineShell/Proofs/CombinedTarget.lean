import LineShell.Proofs.OpenedTargets

/-!
# Combined targets

With a combined target both outputs of a command are one open file, and so are all copies of them.
Their writes share one offset, which stands at the end of the file: it begins there when the file was
emptied, every write leaves it there, and a file that was opened for appending is written at its end
in any case (`World.Collects`).  So the writes follow each other in the file, in whatever order they
come from the two outputs.
-/

namespace LineShell

open LineShell.Action

/-! ## Writes that follow each other -/

namespace World

variable {world : World} {number : Nat} {location : Location} {permissions : Permissions}
  {bytes : Bytes}

/-- Writes in their order, each with the sink that it goes to. -/
def writeAll (world : World) : List (Sink × Bytes) → Except IoError World
  | [] => .ok world
  | (sink, data) :: later => do
    let world ← world.write sink data
    world.writeAll later

/-- The open file with this number is a regular file at the location, it holds the bytes, and the next
write goes to its end. -/
structure Collects (world : World) (number : Nat) (location : Location) (permissions : Permissions)
    (bytes : Bytes) : Prop where
  opened : ∃ file, world.openFiles[number]? = some file ∧ file.location = location ∧
    (file.appending = true ∨ file.offset = bytes.length)
  stored : ∃ content, world.store.find? location = some (.file content permissions) ∧
    content.bytes = bytes

theorem writeFile_at_end {file : OpenFile} {content : Content} {data : Bytes}
    (hopen : world.openFiles[number]? = some file)
    (hfind : world.store.find? file.location = some (.file content permissions))
    (hend : file.appending = true ∨ file.offset = content.size) (hdata : data ≠ []) :
    world.writeFile number data =
      .ok ({ world with
        store := world.store.put file.location (.file (content.append data) permissions) }.seek
          number (content.size + data.length)) := by
  unfold writeFile
  rw [hopen]
  dsimp only
  rw [hfind]
  dsimp only
  rw [if_neg (by simpa using hdata)]
  cases happending : file.appending with
  | true => rfl
  | false =>
    have hoffset : file.offset = content.size :=
      hend.resolve_left (by rw [happending]; exact Bool.false_ne_true)
    rw [if_neg Bool.false_ne_true, if_neg Bool.false_ne_true, hoffset, Content.overwrite_size]

theorem writeFile_nil (world : World) (number : Nat) :
    world.writeFile number [] = .ok world := by
  unfold writeFile
  split
  · rfl
  · split <;> rfl

/-- A write goes to the end of the file and nowhere else. -/
theorem Collects.write (h : world.Collects number location permissions bytes) (data : Bytes) :
    ∃ after, world.write (.file number) data = .ok after ∧
      after.Collects number location permissions (bytes ++ data) ∧
      ∀ other, other ≠ location → after.store.find? other = world.store.find? other := by
  by_cases hdata : data = []
  · subst hdata
    refine ⟨world, writeFile_nil world number, ?_, fun _ _ => rfl⟩
    rwa [List.append_nil]
  obtain ⟨⟨file, hopen, rfl, hend⟩, content, hfind, rfl⟩ := h
  rw [Content.length_bytes] at hend
  have hroot : file.location ≠ [] := by
    intro hnil
    rw [hnil] at hfind
    cases hfind
  refine ⟨_, writeFile_at_end hopen hfind hend hdata, ⟨?_, ?_⟩, fun other hother => ?_⟩
  · refine ⟨{ file with offset := content.size + data.length }, ?_, rfl, .inr ?_⟩
    · unfold seek
      dsimp only
      rw [List.getElem?_modify_eq, hopen]
      rfl
    · rw [List.length_append, Content.length_bytes]
  · refine ⟨content.append data, ?_, Content.bytes_append content data⟩
    exact (FileStore.find?_put hroot).trans (if_pos rfl)
  · exact FileStore.find?_put_of_ne hother.symm

/-- So do writes one after the other. -/
theorem Collects.writeAll (h : world.Collects number location permissions bytes)
    {writes : List (Sink × Bytes)} (hwrites : ∀ write ∈ writes, write.1 = .file number) :
    ∃ last, world.writeAll writes = .ok last ∧
      last.Collects number location permissions (bytes ++ writes.flatMap Prod.snd) ∧
      ∀ other, other ≠ location → last.store.find? other = world.store.find? other := by
  induction writes generalizing world bytes with
  | nil =>
    refine ⟨world, rfl, ?_, fun _ _ => rfl⟩
    rwa [List.flatMap_nil, List.append_nil]
  | cons write later ih =>
    obtain ⟨sink, data⟩ := write
    obtain ⟨hsink, hlater⟩ := List.forall_mem_cons.1 hwrites
    obtain rfl : sink = .file number := hsink
    obtain ⟨middle, hwrite, hmiddle, hkept⟩ := h.write data
    obtain ⟨last, hlast, hcollects, hkeptLater⟩ := ih hmiddle hlater
    refine ⟨last, ?_, ?_, fun other hother => (hkeptLater other hother).trans (hkept other hother)⟩
    · exact except_bind_eq_ok.2 ⟨middle, hwrite, hlast⟩
    · rwa [List.flatMap_cons, ← List.append_assoc]

end World

/-! ## Opening a combined target -/

namespace Redirection

variable {world after : World} {environment : Environment}

/-- Opening an input changes no file. -/
theorem store_of_openInput {path : Option Text} {source found : Source}
    (h : openInput environment path source world = .ok found after) :
    after.store = world.store := by
  cases path with
  | none => rw [(pure_eq_ok.1 h).2]
  | some path =>
    obtain ⟨⟨location, store⟩, hstore, hafter⟩ :=
      except_map_eq_ok.1 ((World.openInput_eq ..).symm.trans (opening_eq_ok h))
    cases hafter
    exact Opening.eq_of_inStore_input hstore

/-- A combined target is opened behind the input and gives both outputs the same new file. -/
theorem Targets.openAll_combined {stdin : Option Text} {target : Target} {streams : Streams}
    {source : Source} {location : Location} {store : FileStore}
    (hin : openInput environment stdin streams.stdin world = .ok source after)
    (hpath : world.store.openForWriting (environment.resolve target.path) target.mode =
      .ok (location, store)) :
    let sink : Sink := .file after.openFiles.length
    Targets.openAll { stdin, combined := some target } environment streams world =
      .ok ⟨source, sink, sink⟩
        (after.withOpened (.output (environment.resolve target.path) target.mode) location store) := by
  intro sink
  have hopen : openOutput environment (some target) streams.stdout after = .ok sink
      (after.withOpened (.output (environment.resolve target.path) target.mode) location store) := by
    rw [← store_of_openInput hin] at hpath
    unfold openOutput opening WorldAction.ofStep
    dsimp only
    rw [World.openOutput_eq, Opening.inStore, hpath]
    rfl
  unfold Targets.openAll
  rw [bind_of_eq_ok hin]
  exact bind_of_eq_ok hopen

end Redirection

/-! ## Nothing is lost -/

/-- What the file at a location holds.  Without a file it is nothing. -/
def FileStore.bytesAt (store : FileStore) (location : Location) : Bytes :=
  ((store.find? location).map Node.content).getD []

/-- The handles on the outputs of a command: the two streams and every copy of a handle, which is a
handle on the same place. -/
inductive Streams.IsHandle (streams : Streams) : Sink → Prop
  | stdout : IsHandle streams streams.stdout
  | stderr : IsHandle streams streams.stderr
  | copy {sink : Sink} (original : IsHandle streams sink) : IsHandle streams sink

theorem Streams.IsHandle.eq_file {streams : Streams} {number : Nat} {sink : Sink}
    (h : streams.IsHandle sink) (hout : streams.stdout = .file number)
    (herr : streams.stderr = .file number) : sink = .file number := by
  induction h with
  | stdout => exact hout
  | stderr => exact herr
  | copy _ ih => exact ih

namespace Redirection

variable {world ready : World} {environment : Environment} {streams : Streams}
  {stdin : Option Text} {source : Source} {target : Target} {location : Location}
  {store : FileStore} {content : Content} {permissions : Permissions}

/-- What a regular file holds when it has been opened for writing. -/
theorem bytes_of_openForWriting {path : Path} {mode : Mode}
    (hpath : world.store.openForWriting path mode = .ok (location, store))
    (hregular : store.find? location = some (.file content permissions)) :
    content.bytes = if mode = .append then world.store.bytesAt location else [] := by
  rw [FileStore.find?_of_openAt (FileStore.openAt_of_openForWriting hpath), if_pos rfl] at hregular
  unfold FileStore.bytesAt
  cases hbefore : world.store.find? location with
  | none =>
    rw [hbefore] at hregular
    cases hregular
    exact (ite_self _).symm
  | some node =>
    rw [hbefore] at hregular
    cases node with
    | file before _ =>
      cases mode with
      | truncate =>
        cases hregular
        rfl
      | append =>
        cases hregular
        rfl
    | directory | link _ | program _ | nullDevice | fullDevice => cases hregular

/-- A combined target loses nothing.  If the input is there and the path of the target opens as a
regular file, both outputs are opened, and every sequence of writes to them or to copies of them
succeeds.  In the end the file holds what it held before, unless it was emptied, and then all that was
written, in the order of the writes.  All other files are as they were before the opening. -/
theorem combined_target_keeps_every_write
    (hin : openInput environment stdin streams.stdin world = .ok source ready)
    (hpath : world.store.openForWriting (environment.resolve target.path) target.mode =
      .ok (location, store))
    (hregular : store.find? location = some (.file content permissions)) :
    ∃ opened after,
      Targets.openAll { stdin, combined := some target } environment streams world =
        .ok opened after ∧
      ∀ writes : List (Sink × Bytes), (∀ write ∈ writes, opened.IsHandle write.1) →
        ∃ last final, after.writeAll writes = .ok last ∧
          last.store.find? location = some (.file final permissions) ∧
          final.bytes =
            (if target.mode = .append then world.store.bytesAt location else []) ++
              writes.flatMap Prod.snd ∧
          ∀ other, other ≠ location → last.store.find? other = world.store.find? other := by
  let opening : Opening := .output (environment.resolve target.path) target.mode
  let after := ready.withOpened opening location store
  refine ⟨_, after, Targets.openAll_combined hin hpath, fun writes hwrites => ?_⟩
  have hbytes := bytes_of_openForWriting hpath hregular
  have hcollects : after.Collects ready.openFiles.length location permissions content.bytes :=
    { opened := by
        refine ⟨_, List.getElem?_concat_length .., rfl, ?_⟩
        cases hmode : target.mode with
        | append => exact .inl (decide_eq_true hmode)
        | truncate =>
          rw [hmode] at hbytes
          rw [hbytes]
          exact .inr rfl
      stored := ⟨content, hregular, rfl⟩ }
  obtain ⟨last, hlast, ⟨-, final, hfinal, hholds⟩, hkept⟩ :=
    hcollects.writeAll fun write hwrite => (hwrites write hwrite).eq_file rfl rfl
  refine ⟨last, final, hlast, hfinal, hbytes ▸ hholds, fun other hother => ?_⟩
  rw [hkept other hother]
  exact (FileStore.find?_of_openAt (FileStore.openAt_of_openForWriting hpath) other).trans
    (if_neg hother.symm)

open Shell in
/-- Both outputs of a line that appends to a file behind a link, in turn. -/
theorem combined_target_keeps_every_write_link :
    let world := amongFiles.state.world
    let log : Location := [Path.ofText "log".toList]
    let environment := amongFiles.state.session.environment
    ∃ opened after last final,
      Targets.openAll { combined := some ⟨"link".toList, .append⟩ } environment .ofConsole world =
        .ok opened after ∧
      after.writeAll [(opened.stdout, [66, 67]), (opened.stderr, [68]), (opened.stdout, [69])] =
        .ok last ∧
      last.store.find? log = some (.file final .ofNewFile) ∧ final.bytes = [65, 66, 67, 68, 69] := by
  intro world log environment
  have hin : openInput environment none Streams.ofConsole.stdin world = .ok .console world := rfl
  let target : Target := ⟨"link".toList, .append⟩
  have hpath : world.store.openForWriting (environment.resolve target.path) target.mode =
      .ok (log, world.store) := by
    decide +kernel
  have hregular : world.store.find? log = some (.file (.ofBytes [65]) .ofNewFile) := by
    decide +kernel
  obtain ⟨opened, after, hopen, hwritten⟩ :=
    combined_target_keeps_every_write hin hpath hregular
  let writes : List (Sink × Bytes) :=
    [(opened.stdout, [66, 67]), (opened.stderr, [68]), (opened.stdout, [69])]
  have hwrites : ∀ write ∈ writes, opened.IsHandle write.1 :=
    List.forall_mem_cons.2 ⟨.stdout, List.forall_mem_cons.2 ⟨.stderr,
      List.forall_mem_cons.2 ⟨.copy .stdout, List.forall_mem_nil _⟩⟩⟩
  obtain ⟨last, final, hlast, hfinal, hbytes, -⟩ := hwritten _ hwrites
  exact ⟨opened, after, last, final, hopen, hlast, hfinal, hbytes⟩

end Redirection

end LineShell
