import LineShell.LineSource
import LineShell.Proofs.BatchRuns
import LineShell.Proofs.SparedFiles

/-!
# Lines of an open file

A line source reads a file in chunks and keeps in its buffer what it has read too much.  So what is
still to come are the bytes of the buffer and those of the file behind its offset.  However the chunks
fall, the source gives the first line of these bytes, and the other lines are still to come
(`LineSource.next_cases`).
-/

namespace LineShell

variable {world : World} {number chunks : Nat} {bytes : Bytes}

/-! ## Reading a file -/

namespace World

/-- The bytes of an open file, if it is a regular one. -/
def bytesOf? (world : World) (number : Nat) : Option Bytes :=
  match world.openNode? number with
  | some (.file content _) => some content.bytes
  | _ => none

/-- An open file has these bytes. -/
def Holds (world : World) (number : Nat) (bytes : Bytes) : Prop :=
  world.bytesOf? number = some bytes

instance (world : World) (number : Nat) (bytes : Bytes) : Decidable (world.Holds number bytes) :=
  inferInstanceAs (Decidable (_ = _))

theorem holds_iff :
    world.Holds number bytes ↔ ∃ file content permissions, world.HasOpen number file ∧
      world.store.find? file.location = some (.file content permissions) ∧
        content.bytes = bytes := by
  unfold Holds bytesOf? openNode? HasOpen
  constructor
  · intro h
    split at h
    · next content permissions hnode =>
      obtain ⟨file, hopen, hfile⟩ := Option.bind_eq_some_iff.1 hnode
      exact ⟨file, content, permissions, hopen, hfile, Option.some.inj h⟩
    · cases h
  · rintro ⟨file, content, permissions, hopen, hfile, rfl⟩
    rw [Option.bind_eq_some_iff.2 ⟨file, hopen, hfile⟩]

theorem read_of_hasOpen {file : OpenFile} {content : Content} {permissions : Permissions}
    (hopen : world.HasOpen number file)
    (hfile : world.store.find? file.location = some (.file content permissions))
    (limit : Option Nat) :
    world.read (.file number) limit =
      let data := (content.bytes.drop file.offset).take (limit.getD content.size)
      .ok (data, world.seek number (file.offset + data.length)) := by
  have hrest : world.restOfFile file limit =
      .ok ((content.bytes.drop file.offset).take (limit.getD content.size)) := by
    unfold restOfFile
    rw [hfile, ← Content.slice_eq]
  unfold read
  dsimp only
  rw [hopen]
  dsimp only
  rw [hrest]
  rfl

namespace Holds

theorem exists_hasOpen (h : world.Holds number bytes) : ∃ file, world.HasOpen number file := by
  obtain ⟨file, -, -, hopen, -, -⟩ := holds_iff.1 h
  exact ⟨file, hopen⟩

/-- What is read begins at the offset and is passed over. -/
theorem read (h : world.Holds number bytes) (offset limit : Nat) :
    (world.seek number offset).read (.file number) (some limit) =
      let data := (bytes.drop offset).take limit
      .ok (data, world.seek number (offset + data.length)) := by
  obtain ⟨file, content, permissions, hopen, hfile, rfl⟩ := holds_iff.1 h
  rw [read_of_hasOpen (hopen.seek offset) hfile]
  dsimp only
  rw [seek_seek]
  rfl

theorem available (h : world.Holds number bytes) (offset : Nat) :
    LineSource.available (.file number) (world.seek number offset) = (bytes.drop offset).length := by
  obtain ⟨file, content, permissions, hopen, hfile, rfl⟩ := holds_iff.1 h
  unfold LineSource.available
  rw [read_of_hasOpen (hopen.seek offset) hfile]
  simp [← Content.length_bytes]

end Holds

end World

namespace LineSource

/-! ## Reading in chunks -/

/-- The file goes on from an offset with these data, which have a line end or are all there is. -/
structure Brings (bytes : Bytes) (offset : Nat) (data : Bytes) (position : Nat) : Prop where
  drop_eq : bytes.drop offset = data ++ bytes.drop position
  enough : Lines.lineFeed ∈ data ∨ bytes.drop position = []

variable {offset : Nat}

theorem drop_eq_take_append (bytes : Bytes) (offset limit : Nat) :
    let chunk := (bytes.drop offset).take limit
    bytes.drop offset = chunk ++ bytes.drop (offset + chunk.length) := by
  intro chunk
  have happend : chunk ++ (bytes.drop offset).drop limit = bytes.drop offset :=
    List.take_append_drop limit _
  have hbehind : (bytes.drop offset).drop chunk.length = (bytes.drop offset).drop limit := by
    have hdrop := congrArg (List.drop chunk.length) happend
    rw [List.drop_left] at hdrop
    exact hdrop.symm
  rw [← List.drop_drop, hbehind, happend]

/-- A chunk brings enough, or more is read behind it. -/
theorem chunk_brings (more : World → Except IoError (Bytes × World))
    (h : world.Holds number bytes) (hmore : ∀ behind, (bytes.drop behind).length < (bytes.drop offset).length →
      ∃ data position, Brings bytes behind data position ∧
        more (world.seek number behind) = .ok (data, world.seek number position)) :
    ∃ data position, Brings bytes offset data position ∧
      (do
        let (chunk, world) ← (world.seek number offset).read (.file number) (some chunkSize)
        if goesOn chunk then
          let (more, world) ← more world
          .ok (chunk ++ more, world)
        else .ok (chunk, world)) = .ok (data, world.seek number position) := by
  have hread := h.read offset chunkSize
  have hdrop := drop_eq_take_append bytes offset chunkSize
  have hempty : (bytes.drop offset).take chunkSize = [] → bytes.drop offset = [] := fun hnil =>
    (List.take_eq_nil_iff.1 hnil).resolve_left (by decide)
  generalize (bytes.drop offset).take chunkSize = chunk at hread hdrop hempty
  dsimp only at hread hdrop
  rw [hread]
  cases hgoesOn : goesOn chunk with
  | false =>
    refine ⟨chunk, offset + chunk.length, ⟨hdrop, ?_⟩, ?_⟩
    · rcases Bool.and_eq_false_iff.1 hgoesOn with hnil | hfeed
      -- A chunk may hold at least one byte, so an empty one means that the file has ended.
      · right
        obtain rfl : chunk = [] := by simpa using hnil
        simpa using hempty rfl
      · left
        simpa using hfeed
    · change (if goesOn chunk then _ else _) = _
      rw [hgoesOn]
      rfl
  | true =>
    have hne : chunk ≠ [] := by
      rintro rfl
      cases hgoesOn
    have hshorter : (bytes.drop (offset + chunk.length)).length < (bytes.drop offset).length := by
      have hlength := congrArg List.length hdrop
      have hpositive := List.length_pos_of_ne_nil hne
      rw [List.length_append] at hlength
      omega
    obtain ⟨data, position, hbrings, hran⟩ := hmore _ hshorter
    refine ⟨chunk ++ data, position, ⟨?_, ?_⟩, ?_⟩
    · rw [hdrop, hbrings.drop_eq, List.append_assoc]
    · exact hbrings.enough.imp_left (List.mem_append_right chunk)
    · change (if goesOn chunk then _ else _) = _
      rw [hgoesOn, if_pos rfl, hran]
      rfl

theorem readChunks_brings (h : world.Holds number bytes)
    (hchunks : (bytes.drop offset).length < chunks) :
    ∃ data position, Brings bytes offset data position ∧
      readChunks (.file number) chunks (world.seek number offset) =
        .ok (data, world.seek number position) := by
  induction chunks generalizing offset with
  | zero => omega
  | succ chunks ih => exact chunk_brings _ h fun behind hshorter => ih (by omega)

theorem readLine_brings (h : world.Holds number bytes) (offset : Nat) :
    ∃ data position, Brings bytes offset data position ∧
      readLine (.file number) (world.seek number offset) =
        .ok (data, world.seek number position) := by
  let more (world : World) : Except IoError (Bytes × World) :=
    readChunks (.file number) (available (.file number) world + 1) world
  -- Every further chunk brings a byte, so there are no more chunks than bytes behind the first one.
  refine chunk_brings more h fun behind _ => ?_
  dsimp only [more]
  rw [h.available]
  exact readChunks_brings h (Nat.lt_succ_self _)

/-! ## The next line -/

/-- A source that reads an open file and has bytes in its buffer. -/
def ofFile (number : Nat) (buffer : Bytes) : LineSource := { source := .file number, buffer }

/-- A filled buffer has a line end or everything that is still to come. -/
theorem fill_ofFile (h : world.Holds number bytes) (buffer : Bytes) (offset : Nat) :
    ∃ filled position, buffer ++ bytes.drop offset = filled ++ bytes.drop position ∧
      (Lines.lineFeed ∈ filled ∨ bytes.drop position = []) ∧
        (ofFile number buffer).fill (world.seek number offset) =
          .ok (ofFile number filled, world.seek number position) := by
  by_cases hfeed : Lines.lineFeed ∈ buffer
  · exact ⟨buffer, offset, rfl, .inl hfeed, if_pos (by simpa [ofFile] using hfeed)⟩
  · obtain ⟨data, position, hbrings, hread⟩ := readLine_brings h offset
    refine ⟨buffer ++ data, position, ?_, ?_, ?_⟩
    · rw [hbrings.drop_eq, List.append_assoc]
    · exact hbrings.enough.imp_left (List.mem_append_right buffer)
    · unfold fill
      rw [if_neg (by simpa [ofFile] using hfeed)]
      change (readLine (.file number) (world.seek number offset)).map _ = _
      rw [hread]
      rfl

/-- A line that is taken out of a buffer is the first one of all bytes that are still to come. -/
theorem takeLine_cases (buffer : Bytes) :
    (∃ line rest, takeLine buffer = some (line, rest) ∧
      ∀ behind, Lines.lineFeed ∈ buffer ∨ behind = [] →
        Lines.split (buffer ++ behind) = line :: Lines.split (rest ++ behind)) ∨
      takeLine buffer = none ∧ buffer = [] := by
  by_cases hfeed : Lines.lineFeed ∈ buffer
  · obtain ⟨line, rest, rfl, hunbroken⟩ := List.eq_append_cons_of_mem hfeed
    have hline : ∀ b ∈ line, (b != Lines.lineFeed) = true := fun b hb =>
      bne_iff_ne.2 (ne_of_mem_of_not_mem hb hunbroken)
    refine .inl ⟨Lines.dropReturn line, rest, ?_, fun behind _ => ?_⟩
    · unfold takeLine
      rw [List.dropWhile_append_of_pos hline, List.takeWhile_append_of_pos hline]
      simp
    · rw [List.append_assoc, List.cons_append, Lines.split_append_lineFeed hunbroken]
  · have hdrop : buffer.dropWhile (· != Lines.lineFeed) = [] :=
      List.dropWhile_eq_nil_iff.2 fun b hb => bne_iff_ne.2 (ne_of_mem_of_not_mem hb hfeed)
    unfold takeLine
    rw [hdrop]
    by_cases hnil : buffer = []
    · exact .inr ⟨by simp [hnil], hnil⟩
    · refine .inl ⟨buffer, [], by simp [hnil], ?_⟩
      rintro behind (hmem | rfl)
      · exact absurd hmem hfeed
      · rw [List.append_nil, Lines.split_of_not_mem hfeed, Lines.unterminated,
          if_neg (by simpa using hnil)]
        rfl

theorem next_of_fill {lines filled : LineSource} {after : World}
    (h : lines.fill world = .ok (filled, after)) :
    lines.next world =
      match takeLine filled.buffer with
      | none => .ok (none, filled, after)
      | some (line, buffer) => .ok (some line, { filled with buffer }, after) := by
  unfold next
  rw [h]
  rfl

/-- The source gives the first of the lines that are still to come, and says so if there is none. -/
theorem next_cases (h : world.Holds number bytes) (buffer : Bytes) (offset : Nat) :
    (∃ line rest position,
      Lines.split (buffer ++ bytes.drop offset) =
          line :: Lines.split (rest ++ bytes.drop position) ∧
        (ofFile number buffer).next (world.seek number offset) =
          .ok (some line, ofFile number rest, world.seek number position)) ∨
      ∃ position, Lines.split (buffer ++ bytes.drop offset) = [] ∧
        (ofFile number buffer).next (world.seek number offset) =
          .ok (none, ofFile number [], world.seek number position) := by
  obtain ⟨filled, position, hpending, henough, hfill⟩ := fill_ofFile h buffer offset
  rw [next_of_fill hfill, hpending]
  dsimp only [ofFile]
  rcases takeLine_cases filled with ⟨line, rest, htake, hsplit⟩ | ⟨htake, rfl⟩
  · rw [htake]
    exact .inl ⟨line, rest, position, hsplit _ henough, rfl⟩
  · rw [htake, henough.resolve_left List.not_mem_nil]
    exact .inr ⟨position, rfl, rfl⟩

end LineSource

end LineShell
