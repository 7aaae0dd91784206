import LineShell.Proofs.LineParts
import LineShell.Proofs.LineEffects

/-!
# Lines with a comment

A comment begins at the first `#` that starts a word.  The character loop that finds it knows only
whether the last character was a blank, and the words of a line are taken by splitting it at blanks.
Both notions of a word meet here: what stands before the comment has the words of the line up to the
first one that begins with `#` (`words_stripComment`).

A comment that is written behind a line leaves the significant part of the line as it is, whether or
not the line has a comment already (`significant_append_comment`).  Since execution looks at a line
only through its significant part (`executeLine_congr`), nothing that is written in a comment can
make a difference.
-/

namespace LineShell

namespace Text

variable {line rest front word : Text} {c : Char}

/-! ## Where a comment begins -/

theorem ne_hash_of_isBlank (hc : isBlank c = true) : c ≠ '#' := by
  rintro rfl
  exact absurd hc (by decide)

theorem beforeComment_cons_blank (hc : isBlank c = true) (atWordStart : Bool) :
    beforeComment atWordStart (c :: rest) = c :: beforeComment true rest := by
  simp [beforeComment, ne_hash_of_isBlank hc, hc]

/-- Inside a word no comment begins. -/
theorem beforeComment_append_word (hword : ∀ d ∈ word, isBlank d = false) :
    beforeComment false (word ++ rest) = word ++ beforeComment false rest := by
  induction word with
  | nil => rfl
  | cons d word ih =>
    obtain ⟨hd, hrest⟩ := List.forall_mem_cons.1 hword
    simp [beforeComment, hd, ih hrest]

/-- A word that does not begin with a hash is passed over. -/
theorem stripComment_append_word (hword : ∀ d ∈ word, isBlank d = false)
    (hstart : word.head? ≠ some '#') (hrest : ∀ d ∈ rest.head?, isBlank d = true) :
    stripComment (word ++ rest) = word ++ stripComment rest := by
  have hflag : beforeComment false rest = beforeComment true rest := by
    cases rest with
    | nil => rfl
    | cons c rest =>
      have hc : isBlank c = true := hrest c rfl
      rw [beforeComment_cons_blank hc, beforeComment_cons_blank hc]
  cases word with
  | nil => rfl
  | cons d word =>
    obtain ⟨hd, hword⟩ := List.forall_mem_cons.1 hword
    have hhash : d ≠ '#' := by simpa using hstart
    have hbehind : beforeComment false (word ++ rest) = word ++ beforeComment false rest :=
      beforeComment_append_word hword
    simp [stripComment, beforeComment, hhash, hd, hbehind, hflag]

/-- A word that begins with a hash is the beginning of a comment. -/
theorem stripComment_of_hash (hstart : word.head? = some '#') : stripComment (word ++ rest) = [] := by
  obtain ⟨behind, rfl⟩ := List.head?_eq_some_iff.1 hstart
  simp [stripComment, beforeComment]

/-- In front of a comment there is a blank or the beginning of the line, which the flag stands for. -/
theorem isBlank_getLast?_beforeComment {atWordStart : Bool}
    (h : beforeComment atWordStart line ≠ line) :
    ((beforeComment atWordStart line).getLast?.map isBlank).getD atWordStart = true := by
  induction line generalizing atWordStart with
  | nil => exact absurd rfl h
  | cons c line ih =>
    by_cases hcomment : c = '#' ∧ atWordStart = true
    · simp [beforeComment, hcomment]
    · have hkept : beforeComment atWordStart (c :: line) = c :: beforeComment (isBlank c) line := by
        simp [beforeComment, hcomment]
      have hchanged : beforeComment (isBlank c) line ≠ line := fun hsame => h (by rw [hkept, hsame])
      have hlast := ih hchanged
      rw [hkept, List.getLast?_cons]
      cases hcase : (beforeComment (isBlank c) line).getLast? with
      | none => simpa [hcase] using hlast
      | some d => simpa [hcase] using hlast

/-! ## Words before a comment -/

/-- A text without blanks has at most one word, which is the text. -/
theorem forall_mem_words_of_solid {p : Text → Bool} (hfront : ∀ d ∈ front, isBlank d = false)
    (hp : p front = true) : ∀ w ∈ words front, p w = true := by
  intro w hw
  rwa [eq_of_mem_words hfront hw]

/-- Before its comment a line has its words up to the first one that begins with a hash. -/
theorem words_stripComment (line : Text) :
    words (stripComment line) = (words line).takeWhile fun word => word.head? != some '#' := by
  induction line using blankInduction with
  | solid line hline =>
    by_cases hstart : line.head? = some '#'
    · have hne : line ≠ [] := by
        rintro rfl
        cases hstart
      have hstrip : stripComment line = [] := by
        rw [← List.append_nil line, stripComment_of_hash hstart]
      simp [hstrip, words_nil, words_of_not_blank hne hline, hstart]
    · have hstrip : stripComment line = line := by
        have hpassed : stripComment (line ++ []) = line ++ stripComment [] :=
          stripComment_append_word hline hstart (by simp)
        simpa [stripComment, beforeComment] using hpassed
      have hall := forall_mem_words_of_solid (p := fun word => word.head? != some '#') hline
        (by simpa using hstart)
      rw [hstrip, List.takeWhile_eq_self_iff.2 hall]
  | cut front c rest hfront hc ih =>
    rw [words_append_blank hc]
    by_cases hstart : front.head? = some '#'
    · have hne : front ≠ [] := by
        rintro rfl
        cases hstart
      simp [stripComment_of_hash hstart, words_nil, words_of_not_blank hne hfront, hstart]
    · have hstrip : stripComment (front ++ c :: rest) = front ++ c :: stripComment rest := by
        rw [stripComment_append_word hfront hstart (by simpa using hc)]
        exact congrArg (front ++ ·) (beforeComment_cons_blank hc true)
      have hall := forall_mem_words_of_solid (p := fun word => word.head? != some '#') hfront
        (by simpa using hstart)
      rw [hstrip, words_append_blank hc, ih, List.takeWhile_append_of_pos hall]

/-! ## A comment behind a line -/

theorem trim_append_blanks {blanks : Text} (hblanks : ∀ d ∈ blanks, isBlank d = true) (text : Text) :
    trim (text ++ blanks) = trim text := by
  have hend (text : Text) : trimEnd (text ++ blanks) = trimEnd text := by
    have hreverse : ∀ d ∈ blanks.reverse, isBlank d = true := by simpa using hblanks
    simp [trimEnd, List.dropWhile_append_of_pos hreverse]
  by_cases hall : ∀ d ∈ text, isBlank d = true
  · have hwhole : ∀ d ∈ text ++ blanks, isBlank d = true := List.forall_mem_append.2 ⟨hall, hblanks⟩
    simp only [trim, trimStart, List.dropWhile_eq_nil_iff.2 hall, List.dropWhile_eq_nil_iff.2 hwhole]
  · have hsolid : (text.dropWhile isBlank).isEmpty = false := by simpa using hall
    simp [trim, trimStart, List.dropWhile_append, hsolid, hend]

/-- A comment behind a blank is cut off together with nothing else than the blank, if the line has no
comment already. -/
theorem exists_stripComment_append_comment (atWordStart : Bool) (line : Text)
    (hc : isBlank c = true) (comment : Text) :
    ∃ blanks, beforeComment atWordStart (line ++ c :: '#' :: comment) =
      beforeComment atWordStart line ++ blanks ∧ ∀ d ∈ blanks, isBlank d = true := by
  induction line generalizing atWordStart with
  | nil =>
    refine ⟨[c], ?_, by simpa using hc⟩
    rw [List.nil_append, beforeComment_cons_blank hc]
    simp [beforeComment]
  | cons d line ih =>
    by_cases hcomment : d = '#' ∧ atWordStart = true
    · exact ⟨[], by simp [beforeComment, hcomment], by simp⟩
    · obtain ⟨blanks, hline, hblanks⟩ := ih (isBlank d)
      exact ⟨blanks, by simp [beforeComment, hcomment, hline], hblanks⟩

/-- A comment behind a line leaves its significant part alone. -/
theorem significant_append_comment (line : Text) (hc : isBlank c = true) (comment : Text) :
    significant (line ++ c :: '#' :: comment) = significant line := by
  obtain ⟨blanks, hline, hblanks⟩ := exists_stripComment_append_comment true line hc comment
  calc
    significant (line ++ c :: '#' :: comment)
        = trim (beforeComment true (line ++ c :: '#' :: comment)) := rfl
    _ = trim (beforeComment true line ++ blanks) := by rw [hline]
    _ = significant line := trim_append_blanks hblanks _

end Text

/-! ## Execution -/

namespace Shell

variable {line other : Text}

theorem read_congr (h : Text.significant line = Text.significant other) :
    CommandLine.read line = CommandLine.read other := by
  rw [← CommandLine.read_significant line, h, CommandLine.read_significant]

/-- Lines with the same significant part are executed alike. -/
theorem executeLine_congr (h : Text.significant line = Text.significant other) (shell : Shell)
    (record : Bool) : shell.executeLine line record = shell.executeLine other record := by
  have hrun : runLine shell.factories shell.state line record =
      runLine shell.factories shell.state other record := by
    rw [runLine, runLine, read_congr h, h]
  rw [executeLine, executeLine, hrun]

/-- A comment begins at the first hash that starts a word.  What stands before it has the words of the
line up to the first one that begins with a hash.  Taking the significant part once more changes
nothing.  A comment behind a line makes no difference to anything that its execution does, whatever is
in the comment and in the line. -/
theorem comments_are_invisible (line : Text) :
    (∃ comment, line = Text.stripComment line ++ comment ∧
      (comment = [] ∨ comment.head? = some '#' ∧
        (Text.stripComment line).getLast?.all Text.isBlank = true)) ∧
    Text.words (Text.stripComment line) =
      (Text.words line).takeWhile (fun word => word.head? != some '#') ∧
    Text.significant (Text.significant line) = Text.significant line ∧
    ∀ (shell : Shell) (comment : Text) (record : Bool),
      shell.executeLine (line ++ " #".toList ++ comment) record = shell.executeLine line record := by
  refine ⟨?_, Text.words_stripComment line, Text.significant_significant line, ?_⟩
  · obtain ⟨comment, hline, hhash⟩ := Text.exists_eq_beforeComment_append true line
    refine ⟨comment, hline, ?_⟩
    cases comment with
    | nil => exact .inl rfl
    | cons c comment =>
      have hc : c = '#' := hhash c rfl
      have hcut : Text.beforeComment true line ≠ line := by
        intro hsame
        rw [hsame] at hline
        simp at hline
      have hlast := Text.isBlank_getLast?_beforeComment hcut
      refine .inr ⟨by simp [hc], ?_⟩
      rw [Text.stripComment]
      cases hcase : (Text.beforeComment true line).getLast? with
      | none => rfl
      | some d => simpa [hcase] using hlast
  · intro shell comment record
    have hsignificant : Text.significant (line ++ " #".toList ++ comment) = Text.significant line := by
      have hspace : Text.isBlank ' ' = true := by decide
      simpa using Text.significant_append_comment line hspace comment
    exact executeLine_congr hsignificant shell record

end Shell

end LineShell
