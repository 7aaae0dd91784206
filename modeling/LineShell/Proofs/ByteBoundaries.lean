import LineShell.Proofs.EncodedScan

/-!
# Positions between characters

A line may be cut at the positions that lie between two of its characters.  `Between` says this of the
text, `ByteScan.isBoundary` looks at the byte behind the position only, and the two agree on the bytes
of a text (`isBoundary_encode_iff`).  One of the first 128 bytes is a character of its own, so a position
next to such a byte is always one of them (`between_of_isPrefix_drop`).
-/

namespace LineShell.Redirection

open LineShell.Utf8

namespace ByteScan

variable {text : Text} {i : Nat}

/-- A position of an encoded text that lies between two characters, or at one of its ends. -/
def Between (text : Text) (i : Nat) : Prop :=
  ∃ front back, text = front ++ back ∧ i = (encode front).length

namespace Between

theorem zero (text : Text) : Between text 0 := ⟨[], text, rfl, rfl⟩

theorem length (text : Text) : Between text (encode text).length :=
  ⟨text, [], (List.append_nil text).symm, rfl⟩

theorem cons {c : Char} (h : Between text i) :
    Between (c :: text) ((String.utf8EncodeChar c).length + i) := by
  obtain ⟨front, back, rfl, rfl⟩ := h
  exact ⟨c :: front, back, rfl, by rw [encode_cons, List.length_append]⟩

theorem le_length (h : Between text i) : i ≤ (encode text).length := by
  obtain ⟨front, back, rfl, rfl⟩ := h
  rw [encode_append, List.length_append]
  exact Nat.le_add_right _ _

end Between

/-- Only the first byte of a character does not continue one. -/
theorem exists_utf8EncodeChar_eq (c : Char) :
    ∃ b rest, String.utf8EncodeChar c = b :: rest ∧ continuesCharacter b = false ∧
      ∀ d ∈ rest, continuesCharacter d = true := by
  unfold continuesCharacter
  rcases utf8EncodeChar_cases c with ⟨n, hn, -, hbytes⟩ | ⟨-, b, rest, hbytes, hb, hrest⟩
  · have hvalue : (UInt8.ofNat n).toNat = n := toNat_ofNat_of_lt (by omega)
    refine ⟨_, [], hbytes, ?_, List.forall_mem_nil _⟩
    simp only [hvalue, Bool.and_eq_false_iff, decide_eq_false_iff_not]
    omega
  · refine ⟨b, rest, hbytes, ?_, fun d hd => by simpa using hrest d hd⟩
    simp only [Bool.and_eq_false_iff, decide_eq_false_iff_not]
    omega

theorem Between.isBoundary (h : Between text i) : isBoundary (encode text) i = true := by
  obtain ⟨front, back, rfl, rfl⟩ := h
  unfold ByteScan.isBoundary
  cases back with
  | nil => simp
  | cons c back =>
    obtain ⟨b, rest, hbytes, hb, -⟩ := exists_utf8EncodeChar_eq c
    simp [encode_append, encode_cons, hbytes, hb]

/-- No position inside of a character passes for a boundary. -/
theorem between_of_isBoundary (h : isBoundary (encode text) i = true) : Between text i := by
  induction text generalizing i with
  | nil =>
    obtain rfl : i = 0 := by simpa [isBoundary, encode] using h
    exact .zero []
  | cons c text ih =>
    obtain ⟨b, rest, hbytes, -, hrest⟩ := exists_utf8EncodeChar_eq c
    rw [encode_cons, hbytes] at h
    by_cases hinside : i < (String.utf8EncodeChar c).length
    · cases i with
      | zero => exact .zero _
      | succ j =>
        rw [hbytes, List.length_cons] at hinside
        have hj : j < rest.length := by omega
        have hcontinues : continuesCharacter rest[j] = true := hrest _ (List.getElem_mem hj)
        simp [isBoundary, List.getElem?_append_left hj, hj, hcontinues] at h
        omega
    · obtain ⟨j, rfl⟩ := Nat.exists_eq_add_of_le (Nat.not_lt.1 hinside)
      refine (ih ?_).cons
      unfold isBoundary at h ⊢
      rw [← hbytes, List.getElem?_append_right (Nat.le_add_right _ _), Nat.add_sub_cancel_left] at h
      simp only [hbytes, Bool.or_eq_true, beq_iff_eq, List.length_append, List.length_cons] at h ⊢
      rcases h with (hzero | hend) | hbyte
      · omega
      · exact .inl (.inr (by omega))
      · exact .inr hbyte

theorem isBoundary_encode_iff : isBoundary (encode text) i = true ↔ Between text i :=
  ⟨between_of_isBoundary, Between.isBoundary⟩

/-- A piece of a text is there if its ends are in order and lie between characters. -/
theorem piece?_encode_eq_some_iff {stop : Nat} {bytes : Bytes} :
    piece? (encode text) i stop = some bytes ↔
      i ≤ stop ∧ Between text i ∧ Between text stop ∧ ((encode text).take stop).drop i = bytes := by
  simp [piece?, isBoundary_encode_iff, and_assoc]

/-- One of the first 128 bytes is a character of its own. -/
theorem between_of_drop_eq_cons {b : UInt8} {rest : Bytes} (h : (encode text).drop i = b :: rest)
    (hb : b.toNat < 128) : Between text i ∧ Between text (i + 1) := by
  induction text generalizing i with
  | nil => simp [encode] at h
  | cons c text ih =>
    rw [encode_cons, List.drop_append] at h
    by_cases hinside : i < (String.utf8EncodeChar c).length
    · rw [List.drop_eq_getElem_cons hinside, List.cons_append, List.cons.injEq] at h
      have hmem : b ∈ String.utf8EncodeChar c := h.1 ▸ List.getElem_mem hinside
      rcases utf8EncodeChar_cases c with ⟨n, hn, -, hbytes⟩ | ⟨hc, -⟩
      · have hlength : (String.utf8EncodeChar c).length = 1 := by rw [hbytes]; rfl
        obtain rfl : i = 0 := by omega
        have hbehind : Between (c :: text) ((String.utf8EncodeChar c).length + 0) :=
          (Between.zero text).cons
        rw [hlength] at hbehind
        exact ⟨.zero _, by simpa using hbehind⟩
      · have := le_toNat_of_mem hc hmem
        omega
    · obtain ⟨j, rfl⟩ := Nat.exists_eq_add_of_le (Nat.not_lt.1 hinside)
      rw [List.drop_eq_nil_of_le (Nat.not_lt.1 hinside), List.nil_append,
        Nat.add_sub_cancel_left] at h
      obtain ⟨hat, hbehind⟩ := ih h
      exact ⟨hat.cons, by simpa [Nat.add_assoc] using hbehind.cons⟩

/-- A run of the first 128 bytes begins and ends between characters. -/
theorem between_of_isPrefix_drop {bytes : Bytes} (hne : bytes ≠ [])
    (h : bytes <+: (encode text).drop i) (hlow : ∀ b ∈ bytes, b.toNat < 128) :
    Between text i ∧ Between text (i + bytes.length) := by
  obtain ⟨behind, hsplit⟩ := h
  constructor
  · obtain ⟨b, bytes, rfl⟩ := List.exists_cons_of_ne_nil hne
    exact (between_of_drop_eq_cons hsplit.symm (hlow b List.mem_cons_self)).1
  · obtain ⟨front, b, rfl⟩ : ∃ front b, bytes = front ++ [b] :=
      ⟨_, _, (List.dropLast_append_getLast hne).symm⟩
    have hlast : (encode text).drop (i + front.length) = b :: behind := by
      rw [← List.drop_drop, ← hsplit, List.append_assoc, List.drop_left]
      rfl
    rw [List.length_append, List.length_singleton, ← Nat.add_assoc]
    exact (between_of_drop_eq_cons hlast (hlow b (by simp))).2

end ByteScan

end LineShell.Redirection
