import LineShell.Proofs.References
import LineShell.Proofs.Reading

/-!
# Words and paths as parts of a line

The words of a command line and the paths of its redirections stand in the line, and none of them
ends in the middle of a name: behind a word there is a blank, an operator or the end, and behind a
path there is a blank, an angle bracket or the end.  So whatever a word or a path refers to, the line
refers to (`Text.Refers.of_isPart`), and the values of those names are all that the expansion of the
line depends on (`CommandLine.expand_congr`).

Words are taken from the residual, where plain texts meet that are apart in the line.  They do not
grow together: a plain text behind a path begins with a blank (`Decomposes.words_residual`).
-/

namespace LineShell

open Redirection (IsRun)

/-! ## Parts -/

/-- A text stands in another one, and what follows it there could not go on a name. -/
def Text.IsPart (part text : Text) : Prop :=
  ∃ front rest, text = front ++ (part ++ rest) ∧ ∀ c ∈ rest.head?, isNameChar c = false

namespace Text

variable {part text whole name rest : Text}

/-- What is true of the first character of each of two texts is true of that of both together. -/
theorem forall_head?_append {p : Char → Prop} (htext : ∀ c ∈ text.head?, p c)
    (hrest : ∀ c ∈ rest.head?, p c) : ∀ c ∈ (text ++ rest).head?, p c := by
  cases text with
  | nil => exact hrest
  | cons c text => exact htext

theorem IsPart.append_left (h : part.IsPart text) (front : Text) : part.IsPart (front ++ text) := by
  obtain ⟨start, rest, rfl, hrest⟩ := h
  exact ⟨front ++ start, rest, by rw [List.append_assoc], hrest⟩

theorem IsPart.trans (h : part.IsPart text) (htext : text.IsPart whole) : part.IsPart whole := by
  obtain ⟨front, rest, rfl, hrest⟩ := h
  obtain ⟨start, behind, rfl, hbehind⟩ := htext
  refine ⟨start ++ front, rest ++ behind, ?_, forall_head?_append hrest hbehind⟩
  simp only [List.append_assoc]

/-- A text refers to whatever a part of it refers to. -/
theorem Refers.of_isPart (h : part.Refers name) (hpart : part.IsPart text) : text.Refers name := by
  obtain ⟨hvalid, before, after, rfl, hafter⟩ := h
  obtain ⟨front, rest, rfl, hrest⟩ := hpart
  refine ⟨hvalid, front ++ before, after ++ rest, ?_, forall_head?_append hafter hrest⟩
  simp only [List.append_assoc, List.cons_append]

/-! ## Blanks and words -/

theorem toNat_of_isNameChar {c : Char} (h : isNameChar c = true) :
    48 ≤ c.toNat ∧ c.toNat ≤ 122 := by
  unfold isNameChar Char.isAlphanum Char.isAlpha Char.isUpper Char.isLower Char.isDigit at h
  simp only [Bool.or_eq_true, Bool.and_eq_true, decide_eq_true_eq, beq_iff_eq, ge_iff_le,
    UInt32.le_iff_toNat_le] at h
  rcases h with ((hupper | hlower) | hdigit) | rfl
  · exact ⟨le_trans (by decide) hupper.1, le_trans hupper.2 (by decide)⟩
  · exact ⟨le_trans (by decide) hlower.1, le_trans hlower.2 (by decide)⟩
  · exact ⟨hdigit.1, le_trans hdigit.2 (by decide)⟩
  · decide

theorem isNameChar_of_isBlank {c : Char} (h : isBlank c = true) : isNameChar c = false := by
  rw [← Bool.not_eq_true]
  intro hname
  have hrange := toNat_of_isNameChar hname
  simp only [isBlank, Bool.or_eq_true, Bool.and_eq_true, decide_eq_true_eq, beq_iff_eq] at h
  omega

/-- Induction on the blanks of a text: it has none, or the text behind its first one is shorter. -/
@[elab_as_elim]
theorem blankInduction {motive : Text → Prop}
    (solid : ∀ text, (∀ c ∈ text, isBlank c = false) → motive text)
    (cut : ∀ front c rest, (∀ d ∈ front, isBlank d = false) → isBlank c = true → motive rest →
      motive (front ++ c :: rest)) (text : Text) : motive text := by
  -- What was passed over since the last blank is kept in front.
  have hfront : ∀ text front : Text, (∀ d ∈ front, isBlank d = false) → motive (front ++ text) := by
    intro text
    induction text with
    | nil =>
      intro front hfront
      rw [List.append_nil]
      exact solid front hfront
    | cons c rest ih =>
      intro front hfront
      cases hc : isBlank c with
      | true => exact cut front c rest hfront hc (ih [] nofun)
      | false =>
        have hlonger := ih (front ++ [c]) (by simpa [or_imp, forall_and, hc] using hfront)
        rwa [List.append_assoc] at hlonger
  exact hfront text [] nofun

/-- The one word of a text without blanks is the text. -/
theorem eq_of_mem_words {word : Text} (htext : ∀ c ∈ text, isBlank c = false)
    (h : word ∈ words text) : word = text := by
  cases text with
  | nil => cases h
  | cons c rest =>
    rw [words_of_not_blank (List.cons_ne_nil _ _) htext] at h
    exact List.mem_singleton.1 h

/-- A word is a longest run of characters that are no blanks. -/
theorem exists_of_mem_words {word : Text} (h : word ∈ words text) :
    ∃ front rest, text = front ++ (word ++ rest) ∧ IsRun (fun c => !isBlank c) word rest := by
  induction text using blankInduction with
  | solid text htext =>
    obtain rfl := eq_of_mem_words htext h
    exact ⟨[], [], by simp, fun c hc => by simp [htext c hc], nofun⟩
  | cut front c rest hfront hc ih =>
    rw [words_append_blank hc] at h
    rcases List.mem_append.1 h with hfirst | hlater
    · obtain rfl := eq_of_mem_words hfront hfirst
      exact ⟨[], c :: rest, rfl, fun d hd => by simp [hfront d hd], by rintro _ ⟨⟩; simp [hc]⟩
    · obtain ⟨start, behind, hrest, hrun⟩ := ih hlater
      exact ⟨front ++ c :: start, behind, by rw [hrest]; simp, hrun⟩

theorem isPart_of_mem_words {word : Text} (h : word ∈ words text) : word.IsPart text := by
  obtain ⟨front, rest, htext, hrun⟩ := exists_of_mem_words h
  exact ⟨front, rest, htext, fun c hc => isNameChar_of_isBlank (by simpa using hrun.maximal c hc)⟩

/-- A text that begins with a blank, if with anything, only adds its own words. -/
theorem words_append (h : ∀ c ∈ rest.head?, isBlank c = true) :
    words (text ++ rest) = words text ++ words rest := by
  cases rest with
  | nil => rw [List.append_nil, words_nil, List.append_nil]
  | cons c rest =>
    have hc : isBlank c = true := h c rfl
    have hself : words (c :: rest) = words rest := words_append_blank hc [] rest
    rw [words_append_blank hc, hself]

/-- Texts that begin with a blank, if with anything, only add their own words one after the other. -/
theorem words_append_flatMap {ι : Type} {f : ι → Text} {items : List ι}
    (h : ∀ i ∈ items, ∀ c ∈ (f i).head?, isBlank c = true) (text : Text) :
    words (text ++ items.flatMap f) = words text ++ items.flatMap fun i => words (f i) := by
  induction items generalizing text with
  | nil => simp
  | cons i items ih =>
    obtain ⟨hi, hitems⟩ := List.forall_mem_cons.1 h
    rw [List.flatMap_cons, List.flatMap_cons, ← List.append_assoc, ih hitems, words_append hi,
      List.append_assoc]

/-! ## The significant part of a line -/

theorem isPart_trimStart (text : Text) : (trimStart text).IsPart text :=
  ⟨text.takeWhile isBlank, [], by rw [List.append_nil]; exact List.takeWhile_append_dropWhile.symm,
    nofun⟩

theorem isPart_trimEnd (text : Text) : (trimEnd text).IsPart text := by
  refine ⟨[], text.rtakeWhile isBlank, List.rdropWhile_append_rtakeWhile.symm, fun c hc => ?_⟩
  exact isNameChar_of_isBlank (List.mem_rtakeWhile_imp (List.mem_of_mem_head? hc))

/-- Behind what stands before a comment there is the comment or the end of the line. -/
theorem exists_eq_beforeComment_append (atWordStart : Bool) (line : Text) :
    ∃ rest, line = beforeComment atWordStart line ++ rest ∧ ∀ c ∈ rest.head?, c = '#' := by
  induction line generalizing atWordStart with
  | nil => exact ⟨[], rfl, nofun⟩
  | cons c line ih =>
    rw [beforeComment]
    split
    · next hcomment => exact ⟨c :: line, rfl, by rintro _ ⟨⟩; exact hcomment.1⟩
    · obtain ⟨rest, hline, hrest⟩ := ih (isBlank c)
      exact ⟨rest, congrArg (c :: ·) hline, hrest⟩

theorem isPart_stripComment (line : Text) : (stripComment line).IsPart line := by
  obtain ⟨rest, hline, hrest⟩ := exists_eq_beforeComment_append true line
  refine ⟨[], rest, hline, fun c hc => ?_⟩
  rw [hrest c hc]
  decide

theorem isPart_significant (line : Text) : (significant line).IsPart line :=
  ((isPart_trimEnd _).trans (isPart_trimStart _)).trans (isPart_stripComment line)

end Text

/-! ## The parts of a division -/

namespace Redirection

variable {before line : Text} {cut : Scan Char}

/-- The words of the plain texts of a line and its paths, in order. -/
def Scan.parts (cut : Scan Char) : List Text :=
  Text.words cut.lead ++ cut.occurrences.flatMap fun o => o.path :: Text.words o.after

theorem isNameChar_of_inPath_eq_false {c : Char} (h : inPath c = false) : isNameChar c = false := by
  unfold inPath at h
  simp only [Bool.and_eq_false_iff, Bool.not_eq_false', bne_eq_false_iff_eq] at h
  rcases h with (hblank | rfl) | rfl
  · exact Text.isNameChar_of_isBlank (Text.isBlank_of_isAsciiBlank hblank)
  · decide
  · decide

/-- Directly behind a word no word starts. -/
theorem Operator.wordStart_append {word : Text} (hne : word ≠ [])
    (hword : ∀ c ∈ word, Text.isBlank c = false) : wordStart id (before ++ word) = false := by
  rcases List.eq_nil_or_concat word with rfl | ⟨start, c, rfl⟩
  · contradiction
  · have hc : Text.isBlank c = false := hword c (by simp)
    rw [List.concat_eq_append, ← List.append_assoc, wordStart_concat, ← Bool.not_eq_true]
    intro hblank
    exact absurd (Text.isBlank_of_isAsciiBlank hblank) (by simp [hc])

/-- Of all operators only `2>` begins like a name. -/
theorem Operator.isNameChar_head_symbol {operator : Operator} (h : operator ≠ .error) :
    ∀ c ∈ operator.symbol.head?, isNameChar c = false := by
  rcases operator with _ | (_ | _) | _ | (_ | _)
  all_goals first | contradiction | (rintro _ ⟨⟩; decide)

/-- There is no angle bracket in plain text, because it would be an operator. -/
theorem Plain.not_mem {text rest : Text} (h : Plain id before text rest) :
    '<' ∉ text ∧ '>' ∉ text := by
  have hnone (operator : Operator) (c : Char) (hsymbol : operator.symbol = [c])
      (hnotError : operator ≠ .error) : c ∉ text := by
    intro hc
    obtain ⟨start, later, rfl⟩ := List.append_of_mem hc
    refine h start (c :: later) rfl (List.cons_ne_nil _ _) operator
      ⟨⟨later ++ rest, by simp [hsymbol]⟩, fun herror => absurd herror hnotError⟩
  exact ⟨hnone .input '<' rfl (by decide), hnone (.output .truncate) '>' rfl (by decide)⟩

/-- Where plain text begins behind a path, it begins with a blank. -/
theorem Plain.isBlank_head {text rest : Text} (h : Plain id before text rest)
    (hpath : ∀ c ∈ (text ++ rest).head?, inPath c = false) :
    ∀ c ∈ text.head?, Text.isBlank c = true := by
  cases text with
  | nil =>
    intro c hc
    cases hc
  | cons c text =>
    rintro _ ⟨⟩
    have hc : inPath c = false := hpath c rfl
    obtain ⟨hless, hgreater⟩ := h.not_mem
    unfold inPath at hc
    simp only [Bool.and_eq_false_iff, Bool.not_eq_false', bne_eq_false_iff_eq] at hc
    rcases hc with (hblank | rfl) | rfl
    · exact Text.isBlank_of_isAsciiBlank hblank
    · exact absurd List.mem_cons_self hless
    · exact absurd List.mem_cons_self hgreater

namespace Decomposes

/-- Behind a path the line goes on with a blank, another redirection or nothing. -/
theorem isBlank_head_lead (h : Decomposes id before line cut)
    (hpath : ∀ c ∈ line.head?, inPath c = false) : ∀ c ∈ cut.lead.head?, Text.isBlank c = true := by
  cases h with
  | plain hplain => exact hplain.isBlank_head (by simpa using hpath)
  | redirection written hplain =>
    subst written
    exact hplain.isBlank_head hpath

/-- The plain text behind a redirection begins with a blank, if there is any. -/
theorem isBlank_head_after (h : Decomposes id before line cut) :
    ∀ o ∈ cut.occurrences, ∀ c ∈ o.after.head?, Text.isBlank c = true := by
  induction h with
  | plain => exact fun o ho => nomatch ho
  | redirection _ _ _ _ _ path_isRun tail_decomposes ih =>
    exact List.forall_mem_cons.2 ⟨tail_decomposes.isBlank_head_lead path_isRun.maximal, ih⟩

/-- No word of the residual is made of two plain texts. -/
theorem words_residual (h : Decomposes id before line cut) :
    Text.words cut.residual =
      Text.words cut.lead ++ cut.occurrences.flatMap fun o => Text.words o.after :=
  Text.words_append_flatMap h.isBlank_head_after cut.lead

/-- The words of a plain text in front of an operator do not end in the middle of a name.  The one
operator that begins like a name stands behind a blank, and so behind no word. -/
theorem isPart_of_mem_words_of_longest {text rest word : Text} {operator : Operator}
    (hlongest : Operator.Longest id (before ++ text) rest operator) (h : word ∈ Text.words text) :
    word.IsPart (text ++ rest) := by
  obtain ⟨front, behind, rfl, hrun⟩ := Text.exists_of_mem_words h
  refine ⟨front, behind ++ rest, by simp only [List.append_assoc], ?_⟩
  cases behind with
  | cons c behind =>
    rintro _ ⟨⟩
    exact Text.isNameChar_of_isBlank (by simpa using hrun.maximal c rfl)
  | nil =>
    obtain ⟨⟨later, hrest⟩, hstart⟩ := hlongest.stands
    rw [List.map_id] at hrest
    have hword : Operator.wordStart id (before ++ (front ++ (word ++ []))) = false := by
      rw [List.append_nil, ← List.append_assoc]
      exact Operator.wordStart_append (Text.ne_nil_of_mem_words h)
        fun c hc => by simpa using hrun.all c hc
    have hnotError : operator ≠ .error := by
      intro herror
      rw [hstart herror] at hword
      cases hword
    have hsymbol := Operator.isNameChar_head_symbol hnotError
    rw [← hrest, List.nil_append]
    cases hfirst : operator.symbol with
    | nil => exact absurd hfirst operator.symbol_ne_nil
    | cons c symbol =>
      rw [hfirst] at hsymbol
      exact hsymbol

/-- The words of the plain texts of a line and its paths are parts of the line. -/
theorem isPart_of_mem_parts (h : Decomposes id before line cut) :
    ∀ part ∈ cut.parts, part.IsPart line := by
  induction h with
  | plain =>
    intro part hpart
    exact Text.isPart_of_mem_words (by simpa [Scan.parts] using hpart)
  | @redirection before line lead symbol gap path rest operator tail written hplain longest spelled
      gap_isRun path_isRun tail_decomposes ih =>
    subst written
    intro part hpart
    have hparts : part ∈ Text.words lead ∨ part = path ∨ part ∈ tail.parts := by
      simpa [Scan.parts] using hpart
    rcases hparts with hlead | rfl | htail
    · exact isPart_of_mem_words_of_longest longest hlead
    · refine ⟨lead ++ (symbol ++ gap), rest, by simp only [List.append_assoc], fun c hc => ?_⟩
      exact isNameChar_of_inPath_eq_false (path_isRun.maximal c hc)
    · exact ((((ih part htail).append_left path).append_left gap).append_left symbol).append_left lead

theorem mem_parts_of_mem_words (h : Decomposes id before line cut) {word : Text}
    (hword : word ∈ Text.words cut.residual) : word ∈ cut.parts := by
  rw [h.words_residual] at hword
  rcases List.mem_append.1 hword with hlead | hafter
  · exact List.mem_append_left _ hlead
  · obtain ⟨o, ho, hmem⟩ := List.mem_flatMap.1 hafter
    exact List.mem_append_right _ (List.mem_flatMap.2 ⟨o, ho, List.mem_cons_of_mem _ hmem⟩)

end Decomposes

theorem Scan.path_mem_parts {o : Occurrence Char} (h : o ∈ cut.occurrences) : o.path ∈ cut.parts :=
  List.mem_append_right _ (List.mem_flatMap.2 ⟨o, h, List.mem_cons_self⟩)

/-- Mapping the paths of the targets is mapping the paths of the redirections. -/
theorem Scan.mapPaths_targets (cut : Scan Char) (f : Text → Text) :
    cut.targets.mapPaths f =
      cut.occurrences.foldl (fun targets o => targets.set o.operator (f o.path)) .empty := by
  have hfold : ∀ (occurrences : List (Occurrence Char)) (targets : Targets),
      (occurrences.foldl (fun targets o => targets.set o.operator o.path) targets).mapPaths f =
        occurrences.foldl (fun targets o => targets.set o.operator (f o.path))
          (targets.mapPaths f) := by
    intro occurrences
    induction occurrences with
    | nil => exact fun _ => rfl
    | cons o occurrences ih =>
      intro targets
      rw [List.foldl_cons, List.foldl_cons, ih, Targets.mapPaths_set]
  exact hfold cut.occurrences .empty

end Redirection

/-! ## Expansion -/

open Redirection in
/-- The values of the names that a line refers to are all that its expansion depends on. -/
theorem CommandLine.expand_congr {line : Text} {command : CommandLine} {a b : Scope}
    (hread : read line = .command command)
    (h : ∀ name, line.Refers name → a.lookup name = b.lookup name) :
    command.expand a = command.expand b := by
  obtain ⟨parsed, hparsed, -, rfl⟩ := parse_eq_ok_iff.1 (read_eq_command_iff.1 hread).2
  obtain ⟨-, rfl⟩ := Redirection.parse_eq_ok_iff.1 hparsed
  have hcut : Decomposes id [] (Text.significant line) (scan id true (Text.significant line)) :=
    decomposes_iff.2 rfl
  have hpart : ∀ part ∈ (scan id true (Text.significant line)).parts,
      ∀ name, part.Refers name → a.lookup name = b.lookup name := by
    intro part hmem name hrefers
    have hline := (hcut.isPart_of_mem_parts part hmem).trans (Text.isPart_significant line)
    exact h name (hrefers.of_isPart hline)
  unfold expand
  dsimp only
  congr 1
  · refine List.filterMap_congr fun word hword => Scope.argument?_congr (hpart word ?_)
    exact hcut.mem_parts_of_mem_words hword
  · rw [Scan.mapPaths_targets, Scan.mapPaths_targets]
    refine List.foldl_ext _ _ _ fun targets o ho => ?_
    rw [Scope.substitute_congr (hpart o.path (Scan.path_mem_parts ho))]

end LineShell
