import LineShell.CommandLine
import Mathlib.Data.List.DropRight

/-!
# Reading a line

`CommandLine.read` looks at the significant part of a line and at nothing else, and taking the
significant part twice is the same as taking it once (`significant_significant`).  So a line can be
stored by its significant part and read again with the same outcome (`read_significant`).

The second half says what the three outcomes of reading mean, in terms of the parser of
redirections and the words of what it leaves.
-/

namespace LineShell

namespace Text

/-! ## Trimming -/

theorem trimEnd_eq_rdropWhile (text : Text) : trimEnd text = text.rdropWhile isBlank := rfl

theorem trimEnd_isPrefix (text : Text) : trimEnd text <+: text :=
  List.rdropWhile_prefix isBlank text

theorem trimStart_eq_self_iff {text : Text} :
    trimStart text = text ↔ ∀ c ∈ text.head?, isBlank c = false := by
  unfold trimStart
  cases text with
  | nil => simp
  | cons c rest =>
    rw [List.dropWhile_eq_self_iff]
    simp

/-- A beginning of a text without leading blanks has none either. -/
theorem trimStart_of_isPrefix {start text : Text} (h : start <+: text)
    (htext : trimStart text = text) : trimStart start = start := by
  rw [trimStart_eq_self_iff] at htext ⊢
  intro c hc
  obtain ⟨rest, rfl⟩ := h
  exact htext c (by rw [List.head?_append, Option.mem_def.1 hc]; rfl)

theorem trimStart_trimStart (text : Text) : trimStart (trimStart text) = trimStart text :=
  List.dropWhile_idempotent isBlank text

theorem trimEnd_trimEnd (text : Text) : trimEnd (trimEnd text) = trimEnd text :=
  List.rdropWhile_idempotent isBlank text

theorem trimStart_trim (text : Text) : trimStart (trim text) = trim text :=
  trimStart_of_isPrefix (trimEnd_isPrefix _) (trimStart_trimStart text)

@[simp]
theorem trim_trim (text : Text) : trim (trim text) = trim text := by
  calc
    trim (trim text) = trimEnd (trimStart (trim text)) := rfl
    _ = trimEnd (trim text) := by rw [trimStart_trim]
    _ = trim text := trimEnd_trimEnd _

theorem isBlank_head?_trim (text : Text) : ∀ c ∈ (trim text).head?, isBlank c = false :=
  trimStart_eq_self_iff.1 (trimStart_trim text)

theorem isBlank_getLast?_trim (text : Text) : ∀ c ∈ (trim text).getLast?, isBlank c = false := by
  intro c hc
  have hself : (trim text).rdropWhile isBlank = trim text := trimEnd_trimEnd _
  have hne : trim text ≠ [] := by
    intro hnil
    rw [hnil] at hc
    cases hc
  have hlast := List.rdropWhile_eq_self_iff.1 hself hne
  rw [List.getLast?_eq_some_getLast hne, Option.mem_some_iff] at hc
  rw [hc] at hlast
  exact Bool.eq_false_iff.2 hlast

theorem trim_eq_self {text : Text} (hstart : ∀ c ∈ text.head?, isBlank c = false)
    (hend : ∀ c ∈ text.getLast?, isBlank c = false) : trim text = text := by
  unfold trim
  rw [trimStart_eq_self_iff.2 hstart, trimEnd_eq_rdropWhile, List.rdropWhile_eq_self_iff]
  intro hne
  rw [hend _ (List.getLast?_eq_some_getLast hne)]
  exact Bool.false_ne_true

/-! ## Comments -/

theorem beforeComment_cons_eq_self {atWordStart : Bool} {c : Char} {rest : Text}
    (h : beforeComment atWordStart (c :: rest) = c :: rest) :
    beforeComment (isBlank c) rest = rest := by
  rw [beforeComment] at h
  split at h
  · cases h
  · exact List.cons_injective h

/-- What stands before a comment has no comment. -/
theorem beforeComment_beforeComment (atWordStart : Bool) (text : Text) :
    beforeComment atWordStart (beforeComment atWordStart text) = beforeComment atWordStart text := by
  induction text generalizing atWordStart with
  | nil => rfl
  | cons c rest ih =>
    rw [beforeComment]
    split
    · rfl
    · next h => rw [beforeComment, if_neg h, ih]

/-- Cutting a text without a comment short makes no comment. -/
theorem beforeComment_of_isPrefix {atWordStart : Bool} {start text : Text} (h : start <+: text)
    (htext : beforeComment atWordStart text = text) : beforeComment atWordStart start = start := by
  induction start generalizing atWordStart text with
  | nil => rfl
  | cons c start ih =>
    obtain ⟨rest, rfl⟩ := h
    have hrest := ih (List.prefix_append start rest) (beforeComment_cons_eq_self htext)
    rw [List.cons_append, beforeComment] at htext
    split at htext
    · cases htext
    · next hc => rw [beforeComment, if_neg hc, hrest]

/-- Neither does dropping the blanks at its front, since a word starts behind a blank. -/
theorem stripComment_trimStart {text : Text} (h : stripComment text = text) :
    stripComment (trimStart text) = trimStart text := by
  induction text with
  | nil => rfl
  | cons c rest ih =>
    by_cases hc : isBlank c = true
    · have hrest : stripComment rest = rest := by
        have := beforeComment_cons_eq_self h
        rwa [hc] at this
      have hdrop : trimStart (c :: rest) = trimStart rest := List.dropWhile_cons_of_pos hc
      rw [hdrop, ih hrest]
    · have hkeep : trimStart (c :: rest) = c :: rest := List.dropWhile_cons_of_neg hc
      rw [hkeep, h]

theorem stripComment_significant (line : Text) :
    stripComment (significant line) = significant line :=
  beforeComment_of_isPrefix (trimEnd_isPrefix _)
    (stripComment_trimStart (beforeComment_beforeComment true line))

/-- The significant part of a line is its own significant part. -/
@[simp]
theorem significant_significant (line : Text) :
    significant (significant line) = significant line := by
  calc
    significant (significant line) = trim (stripComment (significant line)) := rfl
    _ = trim (significant line) := by rw [stripComment_significant]
    _ = significant line := trim_trim _

@[simp]
theorem trim_significant (line : Text) : trim (significant line) = significant line :=
  trim_trim _

end Text

namespace CommandLine

variable {line text : Text} {command : CommandLine} {fault : LineFault}

/-- A line and its significant part are read alike. -/
theorem read_significant (line : Text) : read (Text.significant line) = read line := by
  unfold read
  rw [Text.significant_significant]

/-! ## The outcomes of reading -/

theorem parse_eq_ok_iff :
    parse text = .ok command ↔
      ∃ parsed, Redirection.parse text = .ok parsed ∧
        (Text.words parsed.residual).length ≤ maxWords ∧
          command = ⟨text, Text.words parsed.residual, parsed.targets⟩ := by
  unfold parse
  cases Redirection.parse text with
  | error fault => simp [bind, Except.bind]
  | ok parsed =>
    by_cases hlong : maxWords < (Text.words parsed.residual).length
    · simp [bind, Except.bind, hlong, Nat.not_le_of_lt hlong]
    · simp [bind, Except.bind, hlong, eq_comm, Nat.le_of_not_lt hlong]

theorem parse_eq_error_iff :
    parse text = .error fault ↔
      Redirection.parse text = .error fault ∨
        ∃ parsed, Redirection.parse text = .ok parsed ∧
          maxWords < (Text.words parsed.residual).length ∧ fault = .tooManyWords := by
  unfold parse
  cases Redirection.parse text with
  | error fault => simp [bind, Except.bind]
  | ok parsed =>
    by_cases hlong : maxWords < (Text.words parsed.residual).length
    · simp [bind, Except.bind, hlong, eq_comm]
    · simp [bind, Except.bind, hlong]

theorem read_eq_blank_iff : read line = .blank ↔ Text.significant line = [] := by
  unfold read
  by_cases hblank : Text.significant line = []
  · simp [hblank]
  · cases hparse : parse (Text.significant line) <;> simp [hblank, hparse]

theorem read_eq_command_iff :
    read line = .command command ↔
      Text.significant line ≠ [] ∧ parse (Text.significant line) = .ok command := by
  unfold read
  by_cases hblank : Text.significant line = []
  · simp [hblank]
  · cases hparse : parse (Text.significant line) <;> simp [hblank, hparse]

theorem read_eq_malformed_iff :
    read line = .malformed fault ↔
      Text.significant line ≠ [] ∧ parse (Text.significant line) = .error fault := by
  unfold read
  by_cases hblank : Text.significant line = []
  · simp [hblank]
  · cases hparse : parse (Text.significant line) <;> simp [hblank, hparse]

/-- A command line is known by the significant part that it was read from. -/
theorem text_of_read (h : read line = .command command) : command.text = Text.significant line := by
  obtain ⟨parsed, -, -, rfl⟩ := parse_eq_ok_iff.1 (read_eq_command_iff.1 h).2
  rfl

end CommandLine

end LineShell
