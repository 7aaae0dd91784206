import LineShell.Proofs.LineParts

/-!
# The words that are left

Taking a redirection out of a line leaves nothing in its place, not even a blank.  That its neighbours
still do not grow together rests on where a path ends: at a blank, at another redirection or at the end
of the line.  So the plain text behind a redirection begins with a blank, if there is any
(`Decomposes.isBlank_head_after`), and this carries through redirections that follow each other
directly.  The words of the residual are those of the line with a space in the place of each
redirection (`Decomposes.words_replacing_space`).

No angle bracket is left over, since each one that stands in plain text would be an operator
(`Decomposes.not_mem_residual`).  Hence parsing the residual once more changes nothing.
-/

namespace LineShell.Redirection

variable {before line : Text} {cut : Scan Char}

/-! ## Texts in the place of redirections -/

/-- The line with a text in the place of each redirection: of its operator, the blanks behind that,
and its path. -/
def Scan.replacing (cut : Scan Char) (f : Occurrence Char → Text) : Text :=
  cut.lead ++ cut.occurrences.flatMap fun o => f o ++ o.after

/-- With what is written there it is the line itself. -/
theorem Scan.replacing_written (cut : Scan Char) :
    cut.replacing (fun o => o.symbol ++ (o.gap ++ o.path)) = cut.written := by
  unfold replacing written Occurrence.written
  simp only [List.append_assoc]

/-- With nothing there it is the residual. -/
theorem Scan.replacing_nil (cut : Scan Char) : cut.replacing (fun _ => []) = cut.residual := rfl

/-- A space separates the words in front of it from those behind it, whatever they are. -/
theorem Scan.words_replacing_space (cut : Scan Char) :
    Text.words (cut.replacing fun _ => [' ']) =
      Text.words cut.lead ++ cut.occurrences.flatMap fun o => Text.words o.after := by
  have hafter (after : Text) : Text.words ([' '] ++ after) = Text.words after :=
    Text.words_append_blank Text.isBlank_space [] after
  have hhead : ∀ o ∈ cut.occurrences, ∀ c ∈ ([' '] ++ o.after).head?, Text.isBlank c = true := by
    rintro o - _ ⟨⟩
    exact Text.isBlank_space
  have hwords := Text.words_append_flatMap hhead cut.lead
  unfold replacing
  rw [hwords]
  simp only [hafter]

namespace Decomposes

theorem not_mem_residual (h : Decomposes id before line cut) :
    '<' ∉ cut.residual ∧ '>' ∉ cut.residual := by
  induction h with
  | plain hplain => simpa [Scan.residual] using hplain.not_mem
  | @redirection before line lead symbol gap path rest operator tail _ hplain _ _ _ _ _ ih =>
    obtain ⟨hless, hgreater⟩ := hplain.not_mem
    have hresidual : (Scan.mk lead (⟨operator, symbol, gap, path, tail.lead⟩ ::
        tail.occurrences)).residual = lead ++ tail.residual := by
      simp [Scan.residual]
    rw [hresidual]
    exact ⟨List.not_mem_append hless ih.1, List.not_mem_append hgreater ih.2⟩

theorem words_replacing_space (h : Decomposes id before line cut) :
    Text.words cut.residual = Text.words (cut.replacing fun _ => [' ']) :=
  h.words_residual.trans cut.words_replacing_space.symm

/-- At each redirection the residual falls into two texts whose words do not interact. -/
theorem words_residual_append (h : Decomposes id before line cut)
    {earlier later : List (Occurrence Char)} {o : Occurrence Char}
    (hsplit : cut.occurrences = earlier ++ o :: later) :
    Text.words cut.residual =
      Text.words (cut.lead ++ earlier.flatMap (·.after)) ++
        Text.words ((o :: later).flatMap (·.after)) := by
  have hblank := h.isBlank_head_after
  rw [hsplit, List.forall_mem_append] at hblank
  have hfront := Text.words_append_flatMap hblank.1 cut.lead
  have hback := Text.words_append_flatMap hblank.2 []
  rw [List.nil_append, Text.words_nil, List.nil_append] at hback
  rw [h.words_residual, hfront, hback, hsplit, List.flatMap_append, List.append_assoc]

end Decomposes

/-- Taking the redirections out of a line neither glues words together nor loses any.  No angle bracket
is left over, so parsing the residual once more changes nothing.  The words of the residual are those
of the line with a space in the place of each redirection, which is its operator with the blanks and
the path behind it.  At every redirection the words of the residual are the words in front of it and
then the words behind it. -/
theorem residual_keeps_words {parsed : Parsed} (h : parse line = .ok parsed) :
    ('<' ∉ parsed.residual ∧ '>' ∉ parsed.residual) ∧
    parse parsed.residual = .ok { residual := parsed.residual, targets := .empty } ∧
    ∃ cut : Scan Char,
      (∀ other, Decomposes id [] line other ↔ other = cut) ∧
      cut.replacing (fun o => o.symbol ++ (o.gap ++ o.path)) = line ∧
      cut.replacing (fun _ => []) = parsed.residual ∧
      Text.words parsed.residual = Text.words (cut.replacing fun _ => [' ']) ∧
      ∀ earlier o later, cut.occurrences = earlier ++ o :: later →
        Text.words parsed.residual =
          Text.words (cut.lead ++ earlier.flatMap (·.after)) ++
            Text.words ((o :: later).flatMap (·.after)) := by
  obtain ⟨-, rfl⟩ := parse_eq_ok_iff.1 h
  have hcut : Decomposes id [] line (scan id true line) := decomposes_iff.2 rfl
  obtain ⟨hless, hgreater⟩ := hcut.not_mem_residual
  refine ⟨⟨hless, hgreater⟩, parse_of_not_mem hless hgreater, scan id true line,
    fun other => decomposes_iff, ?_, Scan.replacing_nil _, hcut.words_replacing_space, ?_⟩
  · rw [Scan.replacing_written, Scan.written_scan]
  · intro earlier o later hsplit
    exact hcut.words_residual_append hsplit

/-- Three redirections follow each other without a blank, and a fourth one stands directly behind `b`. -/
theorem residual_keeps_words_chain :
    let line : Text := "a>x>>y<z b&>c d".toList
    let parsed : Parsed :=
      { residual := "a b d".toList,
        targets := { Targets.empty with stdin := some ['z'], combined := some ⟨['c'], .truncate⟩ } }
    parse line = .ok parsed ∧
      parse parsed.residual = .ok { residual := parsed.residual, targets := .empty } ∧
      ∃ cut, Decomposes id [] line cut ∧
        cut.replacing (fun _ => [' ']) = "a    b  d".toList ∧
        Text.words parsed.residual = Text.words (cut.replacing fun _ => [' ']) := by
  intro line parsed
  have hparse : parse line = .ok parsed := by decide +kernel
  obtain ⟨-, hagain, cut, hcut, -, -, hwords, -⟩ := residual_keeps_words hparse
  have hscan : cut = scan id true line := decomposes_iff.1 ((hcut cut).2 rfl)
  refine ⟨hparse, hagain, cut, (hcut cut).2 rfl, ?_, hwords⟩
  rw [hscan]
  decide +kernel

end LineShell.Redirection
