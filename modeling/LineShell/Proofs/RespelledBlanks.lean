import LineShell.Proofs.LineParts

/-!
# Lines with other blanks

Two notions of a blank meet in a line.  Words, comments and trimming go by `Text.isBlank`, the
redirections by the smaller class `Text.isAsciiBlank`.  This module says where the difference
decides what a line is.

A respelling puts other blanks in place of the blanks of a line (`Text.Respells`).  Words do not
notice that (`words_map`).  The division of a line into plain texts and redirections can notice it at
two places only: in a path, which a blank of the larger class does not end, and in front of `2>`,
where only a blank of the smaller class starts a word.  A respelling that is faithful to the line at
these two places (`Faithful`) gives a line that is read alike (`CommandLine.read_map`).
-/

namespace LineShell

/-! ## Respellings -/

/-- Puts blanks in place of blanks and changes nothing else. -/
structure Text.Respells (f : Char → Char) : Prop where
  blank : ∀ c, isBlank c = true → isBlank (f c) = true
  other : ∀ c, isBlank c = false → f c = c

namespace Text

variable {f : Char → Char}

/-- Every blank becomes a space. -/
def toSpace (c : Char) : Char := if isBlank c then ' ' else c

theorem respells_toSpace : Respells toSpace where
  blank c hc := by
    unfold toSpace
    rw [if_pos hc]
    decide
  other c hc := by
    unfold toSpace
    rw [hc]
    exact if_neg Bool.false_ne_true

theorem isAsciiBlank_toSpace (c : Char) : isAsciiBlank (toSpace c) = isBlank c := by
  cases hc : isBlank c with
  | true =>
    unfold toSpace
    rw [if_pos hc]
    decide
  | false =>
    rw [respells_toSpace.other c hc, ← Bool.not_eq_true]
    intro hascii
    rw [isBlank_of_isAsciiBlank hascii] at hc
    cases hc

namespace Respells

theorem isBlank_eq (h : Respells f) (c : Char) : isBlank (f c) = isBlank c := by
  cases hc : isBlank c with
  | true => exact h.blank c hc
  | false => rw [h.other c hc, hc]

theorem isBlank_comp (h : Respells f) : isBlank ∘ f = isBlank := funext h.isBlank_eq

/-- A character that is no blank stands where it stood. -/
theorem eq_iff (h : Respells f) {c d : Char} (hd : isBlank d = false) : f c = d ↔ c = d := by
  constructor
  · rintro rfl
    rw [h.isBlank_eq] at hd
    exact (h.other c hd).symm
  · rintro rfl
    exact h.other c hd

theorem map_eq_self (h : Respells f) {text : Text} (htext : ∀ c ∈ text, isBlank c = false) :
    text.map f = text := by
  calc
    text.map f = text.map id := List.map_congr_left fun c hc => h.other c (htext c hc)
    _ = text := List.map_id text

/-! ## Comments, trimming and words -/

theorem beforeComment_map (h : Respells f) (atWordStart : Bool) (text : Text) :
    beforeComment atWordStart (text.map f) = (beforeComment atWordStart text).map f := by
  induction text generalizing atWordStart with
  | nil => rfl
  | cons c rest ih =>
    have hcomment : f c = '#' ↔ c = '#' := h.eq_iff (by decide)
    rw [List.map_cons, beforeComment, beforeComment, h.isBlank_eq, ih]
    simp only [hcomment]
    split <;> rfl

theorem trimStart_map (h : Respells f) (text : Text) :
    trimStart (text.map f) = (trimStart text).map f := by
  unfold trimStart
  rw [List.dropWhile_map, h.isBlank_comp]

theorem trimEnd_map (h : Respells f) (text : Text) :
    trimEnd (text.map f) = (trimEnd text).map f := by
  unfold trimEnd
  rw [← List.map_reverse, List.dropWhile_map, h.isBlank_comp, List.map_reverse]

theorem significant_map (h : Respells f) (line : Text) :
    significant (line.map f) = (significant line).map f := by
  unfold significant stripComment trim
  rw [h.beforeComment_map, h.trimStart_map, h.trimEnd_map]

/-- Words do not depend on the blanks between them. -/
theorem words_map (h : Respells f) (text : Text) : words (text.map f) = words text := by
  induction text using blankInduction with
  | solid text htext => rw [h.map_eq_self htext]
  | cut front c rest hfront hc ih =>
    rw [List.map_append, List.map_cons, words_append_blank (h.blank c hc), ih,
      words_append_blank hc, h.map_eq_self hfront]

end Respells

end Text

/-! ## Scanning through a map -/

namespace Redirection

variable {α β : Type}

def Occurrence.map (f : α → β) (o : Occurrence α) : Occurrence β :=
  { operator := o.operator
    symbol := o.symbol.map f
    gap := o.gap.map f
    path := o.path.map f
    after := o.after.map f }

def Scan.map (f : α → β) (cut : Scan α) : Scan β :=
  { lead := cut.lead.map f
    occurrences := cut.occurrences.map (Occurrence.map f) }

theorem Operator.recognize_map (view : β → Char) (f : α → β) (atWordStart : Bool) (line : List α) :
    recognize view atWordStart (line.map f) = recognize (view ∘ f) atWordStart line := by
  have hstarts : ∀ operator,
      startsAt view atWordStart (line.map f) operator = startsAt (view ∘ f) atWordStart line operator := by
    intro operator
    unfold startsAt
    rw [← List.map_take, List.map_map]
  unfold recognize
  rw [funext hstarts]

/-- A line that is put through a map is cut where the line is cut if it is viewed through the map. -/
theorem scan_map (view : β → Char) (f : α → β) (atWordStart : Bool) (line : List α) :
    scan view atWordStart (line.map f) = (scan (view ∘ f) atWordStart line).map f := by
  fun_induction scan (view ∘ f) atWordStart line with
  | case1 atWordStart line operator h rest body tail ih =>
    have hfound := (Operator.recognize_map view f atWordStart line).trans h
    have hbody : (rest.map f).dropWhile (Text.isAsciiBlank ∘ view) = body.map f :=
      List.dropWhile_map
    have htail : (body.map f).dropWhile (inPath ∘ view) =
        (body.dropWhile (inPath ∘ view ∘ f)).map f := List.dropWhile_map
    rw [scan_of_recognize_eq_some hfound, ← List.map_drop, ← List.map_take]
    dsimp only
    rw [hbody, htail, ih, List.takeWhile_map, List.takeWhile_map]
    rfl
  | case2 => exact scan_nil view _
  | case3 atWordStart c rest h tail ih =>
    have hnone := (Operator.recognize_map view f atWordStart (c :: rest)).trans h
    rw [List.map_cons] at hnone ⊢
    have ih : scan view (Text.isAsciiBlank (view (f c))) (rest.map f) = tail.map f := ih
    rw [scan_cons_of_recognize_eq_none hnone]
    dsimp only
    rw [ih]
    rfl

/-! ## Divisions under another spelling -/

section Respelled

open Text (Respells isBlank isAsciiBlank)

variable {f : Char → Char} {before line rest : Text} {operator : Operator}

theorem Operator.isBlank_of_mem_symbol {c : Char} (h : c ∈ operator.symbol) :
    isBlank c = false := by
  have hall : operator.symbol.all (!isBlank ·) = true := by
    rcases operator with _ | (_ | _) | _ | (_ | _) <;> decide
  simpa using List.all_eq_true.1 hall c h

theorem isPrefix_map_iff {symbol : Text} (hf : Respells f)
    (hsymbol : ∀ c ∈ symbol, isBlank c = false) (text : Text) :
    symbol <+: text.map f ↔ symbol <+: text := by
  induction symbol generalizing text with
  | nil => simp
  | cons d symbol ih =>
    obtain ⟨hd, hrest⟩ := List.forall_mem_cons.1 hsymbol
    cases text with
    | nil => simp
    | cons c text =>
      rw [List.map_cons, List.cons_prefix_cons, List.cons_prefix_cons, ih hrest, eq_comm,
        hf.eq_iff hd, eq_comm]

/-- A respelling leaves `2>` where it is, if a word starts there as before. -/
def StartsKept (f : Char → Char) (line : Text) : Prop :=
  ∀ front c rest, line = front ++ c :: '2' :: '>' :: rest → isAsciiBlank (f c) = isAsciiBlank c

theorem Operator.stands_respelled_iff (hf : Respells f) (hstarts : StartsKept f (before ++ line)) :
    Stands f before line operator ↔ Stands id before line operator := by
  have hsymbol : operator.symbol <+: line.map f ↔ operator.symbol <+: line.map id := by
    rw [List.map_id]
    exact isPrefix_map_iff hf (fun c hc => isBlank_of_mem_symbol hc) line
  unfold Stands
  rw [hsymbol]
  refine and_congr_right fun hprefixed => ?_
  refine imp_congr_right fun herror => ?_
  rcases List.eq_nil_or_concat before with rfl | ⟨front, c, rfl⟩
  · exact Iff.rfl
  · obtain ⟨later, hline⟩ := hprefixed
    rw [List.map_id] at hline
    subst herror
    have hc : isAsciiBlank (f c) = isAsciiBlank c :=
      hstarts front c later (by rw [← hline]; simp [symbol])
    rw [List.concat_eq_append, wordStart_concat, wordStart_concat, hc]
    rfl

theorem inPath_respelled_eq_false (hf : Respells f)
    (hascii : ∀ c, isAsciiBlank c = true → isAsciiBlank (f c) = true) {c : Char}
    (h : inPath c = false) : inPath (f c) = false := by
  unfold inPath at h ⊢
  simp only [Bool.and_eq_false_iff, Bool.not_eq_false', bne_eq_false_iff_eq] at h ⊢
  have hless : f c = '<' ↔ c = '<' := hf.eq_iff (by decide)
  have hgreater : f c = '>' ↔ c = '>' := hf.eq_iff (by decide)
  rw [hless, hgreater]
  exact Or.imp_left (Or.imp_left (hascii c)) h

theorem inPath_respelled_eq_true (hf : Respells f) {c : Char} (hc : isAsciiBlank (f c) = false)
    (h : inPath c = true) : inPath (f c) = true := by
  unfold inPath at h ⊢
  simp only [Bool.and_eq_true, Bool.not_eq_true', bne_iff_ne] at h ⊢
  have hless : f c = '<' ↔ c = '<' := hf.eq_iff (by decide)
  have hgreater : f c = '>' ↔ c = '>' := hf.eq_iff (by decide)
  exact ⟨⟨hc, hless.not.2 h.1.2⟩, hgreater.not.2 h.2⟩

/-- An angle bracket is an angle bracket under any spelling. -/
theorem isAsciiBlank_respelled_eq_false (hf : Respells f) {c : Char} (hc : isAsciiBlank c = false)
    (h : inPath c = false) : isAsciiBlank (f c) = false := by
  unfold inPath at h
  simp only [hc, Bool.and_eq_false_iff, Bool.not_false, bne_eq_false_iff_eq] at h
  rcases h with (h | rfl) | rfl
  · cases h
  · rw [hf.other _ (by decide)]
    exact hc
  · rw [hf.other _ (by decide)]
    exact hc

theorem Operator.Longest.respelled (h : Longest id before line operator) (hf : Respells f)
    (hstarts : StartsKept f (before ++ line)) : Longest f before line operator where
  stands := (stands_respelled_iff hf hstarts).2 h.stands
  length_le other hother := h.length_le other ((stands_respelled_iff hf hstarts).1 hother)

theorem Plain.respelled {text : Text} (h : Plain id before text rest) (hf : Respells f)
    (hstarts : StartsKept f (before ++ (text ++ rest))) : Plain f before text rest := by
  rintro start later rfl hlater operator hstands
  refine h start later rfl hlater operator ((Operator.stands_respelled_iff hf ?_).1 hstands)
  rwa [List.append_assoc, ← List.append_assoc start]

/-- The line is divided in the same way under another spelling of its blanks. -/
theorem Decomposes.respelled {cut : Scan Char} (h : Decomposes id before line cut) (hf : Respells f)
    (hascii : ∀ c, isAsciiBlank c = true → isAsciiBlank (f c) = true)
    (hpaths : ∀ o ∈ cut.occurrences, ∀ c ∈ o.path, isAsciiBlank (f c) = false)
    (hstarts : StartsKept f (before ++ line)) : Decomposes f before line cut := by
  induction h with
  | @plain before line hplain =>
    exact .plain (hplain.respelled hf (by rwa [List.append_nil]))
  | @redirection before line lead symbol gap path rest operator tail written hplain longest spelled
      gap_isRun path_isRun _ ih =>
    subst written
    obtain ⟨hpath, htail⟩ := List.forall_mem_cons.1 hpaths
    have hspelled : symbol.map f = operator.symbol := by
      rw [List.map_id] at spelled
      rw [← spelled, hf.map_eq_self fun c hc => Operator.isBlank_of_mem_symbol (spelled ▸ hc)]
    have hpathRun : IsRun (inPath ∘ f) path rest :=
      ⟨fun c hc => inPath_respelled_eq_true hf (hpath c hc) (path_isRun.all c hc),
        fun c hc => inPath_respelled_eq_false hf hascii (path_isRun.maximal c hc)⟩
    have hgapRun : IsRun (isAsciiBlank ∘ f) gap (path ++ rest) := by
      refine ⟨fun c hc => hascii c (gap_isRun.all c hc), ?_⟩
      cases path with
      | nil =>
        intro c hc
        have hblank : isAsciiBlank c = false := gap_isRun.maximal c hc
        have hout := path_isRun.maximal c hc
        exact isAsciiBlank_respelled_eq_false hf hblank hout
      | cons c path =>
        rintro _ ⟨⟩
        exact hpath c List.mem_cons_self
    refine .redirection rfl (hplain.respelled hf hstarts) (longest.respelled hf ?_) hspelled hgapRun
      hpathRun (ih htail ?_)
    · rwa [List.append_assoc]
    · simpa only [List.append_assoc] using hstarts

/-- What a respelling must not change about a line, so that the line is divided as before. -/
structure Faithful (f : Char → Char) (line : Text) : Prop where
  respells : Respells f
  /-- What ended a path still does. -/
  ascii : ∀ c, isAsciiBlank c = true → isAsciiBlank (f c) = true
  /-- What did not end a path still does not. -/
  paths : ∀ o ∈ (scan id true line).occurrences, ∀ c ∈ o.path, isAsciiBlank (f c) = false
  /-- The same `2>` stand behind a blank that starts a word. -/
  starts : StartsKept f line

/-- A respelling that respects both classes of blanks is faithful to every line. -/
theorem faithful_of_classes (hf : Respells f) (hclasses : ∀ c, isAsciiBlank (f c) = isAsciiBlank c)
    (line : Text) : Faithful f line where
  respells := hf
  ascii c hc := by rw [hclasses, hc]
  paths o ho c hc := by
    have hdecomposes : Decomposes id [] line (scan id true line) := decomposes_iff.2 rfl
    rw [hclasses]
    exact isAsciiBlank_of_inPath (hdecomposes.inPath_of_mem o ho c hc)
  starts _ c _ _ := hclasses c

theorem Faithful.scan_map (h : Faithful f line) :
    scan id true (line.map f) = (scan id true line).map f := by
  have hdecomposes : Decomposes id [] line (scan id true line) := decomposes_iff.2 rfl
  have hsame := decomposes_iff.1 (hdecomposes.respelled h.respells h.ascii h.paths h.starts)
  have hmap := Redirection.scan_map id f true line
  rw [Function.id_comp, ← hsame] at hmap
  exact hmap

/-! ## Parsing -/

def Parsed.map (f : Char → Char) (parsed : Parsed) : Parsed :=
  { residual := parsed.residual.map f, targets := parsed.targets.mapPaths (·.map f) }

theorem Scan.incomplete?_map (cut : Scan Char) :
    (cut.map f).incomplete? = cut.incomplete?.map (Occurrence.map f) := by
  have hempty : (fun o : Occurrence Char => o.path.isEmpty) ∘ Occurrence.map f =
      fun o => o.path.isEmpty := by
    funext o
    exact List.isEmpty_map
  unfold incomplete? map
  rw [List.find?_map, hempty]

theorem Scan.residual_map (cut : Scan Char) : (cut.map f).residual = cut.residual.map f := by
  simp [residual, map, List.flatMap_map, List.map_flatMap, Occurrence.map]

theorem Scan.targets_map (cut : Scan Char) :
    (cut.map f).targets = cut.targets.mapPaths (·.map f) := by
  rw [mapPaths_targets]
  unfold targets map
  rw [List.foldl_map]
  rfl

theorem Faithful.parse_map (h : Faithful f line) :
    parse (line.map f) = (parse line).map (Parsed.map f) := by
  cases hincomplete : (scan id true line).incomplete? with
  | none =>
    have hmapped : (scan id true (line.map f)).incomplete? = none := by
      rw [h.scan_map, Scan.incomplete?_map, hincomplete, Option.map_none]
    rw [parse_of_incomplete?_eq_none hmapped, parse_of_incomplete?_eq_none hincomplete, h.scan_map,
      Scan.residual_map, Scan.targets_map]
    rfl
  | some o =>
    have hmapped : (scan id true (line.map f)).incomplete? = some (o.map f) := by
      rw [h.scan_map, Scan.incomplete?_map, hincomplete, Option.map_some]
    rw [parse_of_incomplete?_eq_some hmapped, parse_of_incomplete?_eq_some hincomplete]
    rfl

end Respelled

end Redirection

/-! ## Reading -/

namespace CommandLine

open Text (Respells isBlank isAsciiBlank toSpace)

variable {f : Char → Char} {line : Text}

def respelled (f : Char → Char) (command : CommandLine) : CommandLine :=
  { text := command.text.map f
    words := command.words
    targets := command.targets.mapPaths (·.map f) }

def Reading.respelled (f : Char → Char) : Reading → Reading
  | blank => blank
  | malformed fault => malformed fault
  | command line => command (line.respelled f)

theorem parse_map {text : Text} (h : Redirection.Faithful f text) :
    parse (text.map f) = (parse text).map (respelled f) := by
  have hlength : ∀ parsed : Redirection.Parsed,
      Text.words (parsed.map f).residual = Text.words parsed.residual :=
    fun parsed => h.respells.words_map parsed.residual
  have hparsed := h.parse_map
  cases hparse : parse text with
  | error fault =>
    refine parse_eq_error_iff.2 ?_
    rw [hparsed]
    rcases parse_eq_error_iff.1 hparse with hredirection | ⟨parsed, hredirection, hlong, rfl⟩
    · rw [hredirection]
      exact .inl rfl
    · rw [hredirection]
      exact .inr ⟨parsed.map f, rfl, by rwa [hlength], rfl⟩
  | ok command =>
    obtain ⟨parsed, hredirection, hshort, rfl⟩ := parse_eq_ok_iff.1 hparse
    refine parse_eq_ok_iff.2 ⟨parsed.map f, ?_, by rwa [hlength], ?_⟩
    · rw [hparsed, hredirection]
      rfl
    · rw [hlength]
      rfl

/-- Whether a line is blank does not depend on the spelling of its blanks. -/
theorem read_map_eq_blank_iff (hf : Respells f) : read (line.map f) = .blank ↔ read line = .blank := by
  rw [read_eq_blank_iff, read_eq_blank_iff, hf.significant_map, List.map_eq_nil_iff]

/-- A line that is respelled faithfully is read alike. -/
theorem read_map (h : Redirection.Faithful f (Text.significant line)) :
    read (line.map f) = (read line).respelled f := by
  have hparse := parse_map h
  have hsignificant := h.respells.significant_map line
  cases hread : read line with
  | blank => exact (read_map_eq_blank_iff h.respells).2 hread
  | malformed fault =>
    obtain ⟨hne, hfault⟩ := read_eq_malformed_iff.1 hread
    refine read_eq_malformed_iff.2 ?_
    rw [hsignificant, hparse, hfault]
    exact ⟨by simpa using hne, rfl⟩
  | command command =>
    obtain ⟨hne, hcommand⟩ := read_eq_command_iff.1 hread
    refine read_eq_command_iff.2 ?_
    rw [hsignificant, hparse, hcommand]
    exact ⟨by simpa using hne, rfl⟩

/-! ## Spaces in place of all blanks -/

/-- Both lines are blank, or they are malformed for the same reason, or their words and their targets
are the same. -/
def Reading.Alike : Reading → Reading → Prop
  | blank, blank => True
  | malformed a, malformed b => a = b
  | command a, command b => a.words = b.words ∧ a.targets = b.targets
  | _, _ => False

instance : DecidableRel Reading.Alike
  | .blank, .blank => .isTrue trivial
  | .malformed a, .malformed b => inferInstanceAs (Decidable (a = b))
  | .command a, .command b => inferInstanceAs (Decidable (a.words = b.words ∧ a.targets = b.targets))
  | .blank, .malformed _ | .blank, .command _ | .malformed _, .blank | .malformed _, .command _
  | .command _, .blank | .command _, .malformed _ => .isFalse id

theorem faithful_toSpace {text : Text}
    (hpaths : ∀ o ∈ (Redirection.scan id true text).occurrences, ∀ c ∈ o.path, isBlank c = false)
    (hstarts : ∀ front c rest, text = front ++ c :: '2' :: '>' :: rest →
      isAsciiBlank c = isBlank c) : Redirection.Faithful toSpace text where
  respells := Text.respells_toSpace
  ascii c hc := by rw [Text.isAsciiBlank_toSpace, Text.isBlank_of_isAsciiBlank hc]
  paths o ho c hc := by rw [Text.isAsciiBlank_toSpace, hpaths o ho c hc]
  starts front c rest htext := by rw [Text.isAsciiBlank_toSpace, hstarts front c rest htext]

/-- Paths without blanks are not respelled. -/
theorem mapPaths_targets_of_read {command : CommandLine} (hf : Respells f)
    (hread : read line = .command command)
    (hpaths : ∀ o ∈ (Redirection.scan id true (Text.significant line)).occurrences,
      ∀ c ∈ o.path, isBlank c = false) :
    command.targets.mapPaths (·.map f) = command.targets := by
  obtain ⟨parsed, hparsed, -, rfl⟩ := parse_eq_ok_iff.1 (read_eq_command_iff.1 hread).2
  obtain ⟨-, rfl⟩ := Redirection.parse_eq_ok_iff.1 hparsed
  dsimp only
  rw [Redirection.Scan.mapPaths_targets]
  refine List.foldl_ext _ _ _ fun targets o ho => ?_
  rw [hf.map_eq_self (hpaths o ho)]

/-- Where the kind of a blank does not decide what a line is.  A line is blank under every spelling of
its blanks.  Among the blanks that separate the parts of a redirection, and among the others, it makes
no difference which one is written: the words stay, and the paths stay but for the blanks in them.
All blanks may be written as spaces if there is none in a path and `2>` stands behind no blank of the
others. -/
theorem read_map_toSpace (line : Text) :
    (∀ f, Respells f → (read (line.map f) = .blank ↔ read line = .blank)) ∧
    (∀ f, Respells f → (∀ c, isAsciiBlank (f c) = isAsciiBlank c) →
      read (line.map f) = (read line).respelled f) ∧
    ((∀ o ∈ (Redirection.scan id true (Text.significant line)).occurrences,
        ∀ c ∈ o.path, isBlank c = false) →
      (∀ front c rest, Text.significant line = front ++ c :: '2' :: '>' :: rest →
        isAsciiBlank c = isBlank c) →
      (read line).Alike (read (line.map toSpace))) := by
  refine ⟨fun f hf => read_map_eq_blank_iff hf, fun f hf hclasses => ?_, fun hpaths hstarts => ?_⟩
  · exact read_map (Redirection.faithful_of_classes hf hclasses _)
  · rw [read_map (faithful_toSpace hpaths hstarts)]
    cases hread : read line with
    | blank => trivial
    | malformed fault => rfl
    | command command =>
      exact ⟨rfl, (mapPaths_targets_of_read Text.respells_toSpace hread hpaths).symm⟩

/-- The condition holds of a line whose words are separated by other blanks. -/
theorem read_map_toSpace_between_words :
    (read "ls\u00a0-l > out".toList).Alike (read "ls -l > out".toList) := by
  have hcut : (Redirection.scan id true (Text.significant "ls\u00a0-l > out".toList)).occurrences =
      [⟨.output .truncate, ['>'], [' '], "out".toList, []⟩] := by decide +kernel
  have hdigit : '2' ∉ Text.significant "ls\u00a0-l > out".toList := by decide +kernel
  refine (read_map_toSpace "ls\u00a0-l > out".toList).2.2 ?_ ?_
  · rw [hcut]
    simp [Text.isBlank]
  · intro front c rest hline
    rw [hline] at hdigit
    simp at hdigit

/-- A no-break space ends a word but no path: the file is `b` with everything behind it, or it is `b`
and `c` is a word.  A vertical tab ends a word, but `2>` behind it is a word and another operator. -/
theorem read_map_toSpace_at_path_end :
    ¬ (read "echo a > b\u00a0c".toList).Alike (read ("echo a > b\u00a0c".toList.map toSpace)) ∧
      ¬ (read "ls\x0b2> e".toList).Alike (read ("ls\x0b2> e".toList.map toSpace)) := by
  decide +kernel

end CommandLine

end LineShell
