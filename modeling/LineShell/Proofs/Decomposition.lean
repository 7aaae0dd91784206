import LineShell.Proofs.PlainText

/-!
# The grammar of redirections

A line is plain text and redirections in turn.  `Decomposes` says what such a division is by what
stands at each position of the line, and not by a way to find it:

* at no position of a plain text does an operator stand;
* a redirection begins with the longest operator that stands at its position;
* its gap is the whole run of blanks behind the operator, and its path is the whole run of path
  characters behind the gap.

Every line has exactly one division, the one that `scan` finds (`decomposes_iff`).  The parser
accepts the line exactly if no path of its division is empty (`parse_eq_ok_iff`,
`parse_eq_error_iff`).

The flag that `scan` carries along is not the one that the grammar asks for: behind a path it is
false, also if the path is empty and a blank stands before it.  The two agree on what is recognized
(`recognize_behind_path`), since an empty path ends at an angle bracket or at the end of the line.
-/

namespace LineShell.Redirection

variable {α : Type} {view : α → Char} {before line rest : List α}

/-! ## Runs -/

/-- `run` is the longest beginning of `run ++ rest` whose elements have the property. -/
structure IsRun (p : α → Bool) (run rest : List α) : Prop where
  all : ∀ c ∈ run, p c = true
  maximal : ∀ c ∈ rest.head?, p c = false

namespace IsRun

variable {p : α → Bool} {run : List α}

theorem of_span (p : α → Bool) (l : List α) : IsRun p (l.takeWhile p) (l.dropWhile p) where
  all _ hc := List.mem_takeWhile_imp hc
  maximal c hc := by
    have hhead := List.head?_dropWhile_not p l
    rw [Option.mem_def.1 hc] at hhead
    exact hhead

theorem takeWhile_rest (h : IsRun p run rest) : rest.takeWhile p = [] := by
  cases rest with
  | nil => rfl
  | cons c rest => exact List.takeWhile_cons_of_neg (by simp [h.maximal c rfl])

theorem dropWhile_rest (h : IsRun p run rest) : rest.dropWhile p = rest := by
  cases rest with
  | nil => rfl
  | cons c rest => exact List.dropWhile_cons_of_neg (by simp [h.maximal c rfl])

theorem takeWhile_append (h : IsRun p run rest) : (run ++ rest).takeWhile p = run := by
  rw [List.takeWhile_append_of_pos h.all, h.takeWhile_rest, List.append_nil]

theorem dropWhile_append (h : IsRun p run rest) : (run ++ rest).dropWhile p = rest := by
  rw [List.dropWhile_append_of_pos h.all, h.dropWhile_rest]

end IsRun

/-! ## Operators at a position -/

theorem isAsciiBlank_of_inPath {c : Char} (h : inPath c = true) : Text.isAsciiBlank c = false := by
  unfold inPath at h
  simp only [Bool.and_eq_true, Bool.not_eq_true'] at h
  exact h.1.1

namespace Operator

variable {operator : Operator}

/-- Whether a word may start behind a text: at the beginning of the line and behind a blank. -/
def wordStart (view : α → Char) (before : List α) : Bool :=
  before.getLast?.all (Text.isAsciiBlank ∘ view)

theorem wordStart_concat (c : α) :
    wordStart view (before ++ [c]) = Text.isAsciiBlank (view c) := by
  simp [wordStart]

/-- The operator is written at the beginning of `line`, which stands behind `before`.  The operator
`2>` stands only where a word may start. -/
def Stands (view : α → Char) (before line : List α) (operator : Operator) : Prop :=
  operator.symbol <+: line.map view ∧ (operator = error → wordStart view before = true)

/-- No longer operator stands at the same position. -/
structure Longest (view : α → Char) (before line : List α) (operator : Operator) : Prop where
  stands : Stands view before line operator
  length_le : ∀ other, Stands view before line other →
    other.symbol.length ≤ operator.symbol.length

theorem startsAt_wordStart_iff :
    startsAt view (wordStart view before) line operator = true ↔
      Stands view before line operator := by
  unfold startsAt Stands
  rw [Bool.and_eq_true, beq_iff_eq, List.map_take, ← List.prefix_iff_eq_take]
  by_cases herror : operator = error
  · simp [herror, and_comm]
  · simp [herror]

/-- No symbol in the table begins a later one. -/
theorem table_pairwise : table.Pairwise fun a b => ¬ a.symbol <+: b.symbol := by
  decide

/-- Of two symbols at one position the shorter begins the longer. -/
theorem symbol_isPrefix_of_stands {other : Operator} (h : Stands view before line operator)
    (hother : Stands view before line other)
    (hlength : operator.symbol.length ≤ other.symbol.length) :
    operator.symbol <+: other.symbol :=
  List.prefix_of_prefix_length_le h.1 hother.1 hlength

theorem longest_of_recognize (h : recognize view (wordStart view before) line = some operator) :
    Longest view before line operator := by
  obtain ⟨hstarts, earlier, later, htable, hearlier⟩ := List.find?_eq_some_iff_append.1 h
  have hstands := startsAt_wordStart_iff.1 hstarts
  refine ⟨hstands, fun other hother => ?_⟩
  by_contra hlonger
  have hbegins : operator.symbol <+: other.symbol :=
    symbol_isPrefix_of_stands hstands hother (by omega)
  -- The longer one is either tried before and does not stand there, or begins with the one found,
  -- which the order of the table excludes.
  have hmem : other ∈ earlier ++ operator :: later := htable ▸ mem_table other
  rcases List.mem_append.1 hmem with hbefore | hbehind
  · have hfails := hearlier other hbefore
    rw [startsAt_wordStart_iff.2 hother] at hfails
    cases hfails
  · rcases List.mem_cons.1 hbehind with rfl | hlater
    · omega
    · have hpairwise := table_pairwise
      rw [htable, List.pairwise_append, List.pairwise_cons] at hpairwise
      exact hpairwise.2.1.1 other hlater hbegins

/-- What is recognized is the longest operator. -/
theorem recognize_eq_some_iff :
    recognize view (wordStart view before) line = some operator ↔
      Longest view before line operator := by
  refine ⟨longest_of_recognize, fun h => ?_⟩
  cases hfound : recognize view (wordStart view before) line with
  | none =>
    have hnone := List.find?_eq_none.1 hfound operator (mem_table operator)
    exact absurd (startsAt_wordStart_iff.2 h.stands) hnone
  | some found =>
    have hlongest := longest_of_recognize hfound
    have hlength := hlongest.length_le operator h.stands
    have hbegins := symbol_isPrefix_of_stands h.stands hlongest.stands hlength
    rw [symbol_injective (hbegins.eq_of_length_le (h.length_le found hlongest.stands))]

theorem recognize_eq_none_iff :
    recognize view (wordStart view before) line = none ↔
      ∀ operator, ¬ Stands view before line operator := by
  unfold recognize
  rw [List.find?_eq_none]
  constructor
  · intro h operator hstands
    exact h operator (mem_table operator) (startsAt_wordStart_iff.2 hstands)
  · intro h operator _ hstarts
    exact h operator (startsAt_wordStart_iff.1 hstarts)

/-- The flag matters only in front of a character that could stand in a path. -/
theorem recognize_of_head_not_inPath (h : ∀ c ∈ line.head?, inPath (view c) = false)
    (flag flag' : Bool) : recognize view flag line = recognize view flag' line := by
  have herror : startsAt view flag line error = startsAt view flag' line error := by
    cases line with
    | nil => simp [startsAt, symbol]
    | cons c rest =>
      have hc : view c ≠ '2' := by
        intro hc
        have hout := h c rfl
        rw [hc] at hout
        exact absurd hout (by decide)
      have hfails : ∀ flag, startsAt view flag (c :: rest) error = false := by
        intro flag
        simp [startsAt, symbol, Ne.symm hc]
      rw [hfails, hfails]
  unfold recognize
  congr 1
  funext operator
  by_cases hoperator : operator = error
  · rw [hoperator, herror]
  · have hother : (operator != error) = true := by simpa using hoperator
    simp only [startsAt, hother, Bool.true_or]

/-- Behind a path no word starts, and where the path is empty it makes no difference. -/
theorem recognize_behind_path {path : List α} (h : IsRun (inPath ∘ view) path rest) :
    recognize view false rest = recognize view (wordStart view (before ++ path)) rest := by
  rcases List.eq_nil_or_concat path with rfl | ⟨start, c, rfl⟩
  · exact recognize_of_head_not_inPath h.maximal _ _
  · have hblank : Text.isAsciiBlank (view c) = false := isAsciiBlank_of_inPath (h.all c (by simp))
    rw [List.concat_eq_append, ← List.append_assoc, wordStart_concat, hblank]

end Operator

/-! ## Divisions of a line -/

/-- At no position of `text` does an operator stand, in a line where `before` stands before the text
and `rest` behind it. -/
def Plain (view : α → Char) (before text rest : List α) : Prop :=
  ∀ start later, text = start ++ later → later ≠ [] →
    ∀ operator, ¬ Operator.Stands view (before ++ start) (later ++ rest) operator

theorem plain_nil : Plain view before [] rest := by
  intro start later htext hlater
  exact absurd (List.append_eq_nil_iff.1 htext.symm).2 hlater

theorem plain_cons_iff {c : α} {text : List α} :
    Plain view before (c :: text) rest ↔
      (∀ operator, ¬ Operator.Stands view before (c :: (text ++ rest)) operator) ∧
        Plain view (before ++ [c]) text rest := by
  constructor
  · intro h
    refine ⟨fun operator => ?_, fun start later htext hlater operator => ?_⟩
    · simpa using h [] (c :: text) rfl (by simp) operator
    · simpa using h (c :: start) later (by rw [htext, List.cons_append]) hlater operator
  · rintro ⟨hfirst, htext⟩ start later hsplit hlater operator
    cases start with
    | nil =>
      obtain rfl : later = c :: text := hsplit.symm
      simpa using hfirst operator
    | cons d start =>
      obtain ⟨rfl, rfl⟩ := List.cons.inj hsplit
      simpa using htext start later rfl hlater operator

/-- The division of `line`, behind which nothing follows and before which `before` stands, into plain
text and redirections. -/
inductive Decomposes (view : α → Char) : List α → List α → Scan α → Prop
  /-- The line is plain. -/
  | plain {before line : List α} (plain : Plain view before line []) :
      Decomposes view before line ⟨line, []⟩
  /-- The line is plain up to a redirection, and what is behind the path is divided on its own. -/
  | redirection {before line lead symbol gap path rest : List α} {operator : Operator}
      {tail : Scan α} (written : line = lead ++ (symbol ++ (gap ++ (path ++ rest))))
      (plain : Plain view before lead (symbol ++ (gap ++ (path ++ rest))))
      (longest :
        Operator.Longest view (before ++ lead) (symbol ++ (gap ++ (path ++ rest))) operator)
      (spelled : symbol.map view = operator.symbol)
      (gap_isRun : IsRun (Text.isAsciiBlank ∘ view) gap (path ++ rest))
      (path_isRun : IsRun (inPath ∘ view) path rest)
      (tail_decomposes : Decomposes view (before ++ lead ++ symbol ++ gap ++ path) rest tail) :
      Decomposes view before line
        ⟨lead, ⟨operator, symbol, gap, path, tail.lead⟩ :: tail.occurrences⟩

/-- A character where no operator stands is added to the plain text at the front. -/
theorem Decomposes.cons {c : α} {cut : Scan α}
    (hnone : ∀ operator, ¬ Operator.Stands view before (c :: line) operator)
    (h : Decomposes view (before ++ [c]) line cut) :
    Decomposes view before (c :: line) { cut with lead := c :: cut.lead } := by
  cases h with
  | plain hplain =>
    exact .plain (plain_cons_iff.2 ⟨by simpa using hnone, hplain⟩)
  | redirection written hplain longest spelled gap_isRun path_isRun tail_decomposes =>
    subst written
    refine .redirection rfl (plain_cons_iff.2 ⟨hnone, hplain⟩) ?_ spelled gap_isRun path_isRun ?_
    · simpa using longest
    · simpa using tail_decomposes

/-- The paths of a division hold path characters only. -/
theorem Decomposes.inPath_of_mem {cut : Scan α} (h : Decomposes view before line cut) :
    ∀ o ∈ cut.occurrences, ∀ c ∈ o.path, inPath (view c) = true := by
  induction h with
  | plain => exact fun o ho => nomatch ho
  | redirection _ _ _ _ _ path_isRun _ ih => exact List.forall_mem_cons.2 ⟨path_isRun.all, ih⟩

/-! ## Scanning finds the division -/

/-- The flag is as good as the text before the line for what is recognized at its beginning. -/
def Agrees (view : α → Char) (flag : Bool) (before line : List α) : Prop :=
  Operator.recognize view flag line =
    Operator.recognize view (Operator.wordStart view before) line

theorem scan_of_recognize_eq_some {flag : Bool} {operator : Operator}
    (h : Operator.recognize view flag line = some operator) :
    scan view flag line =
      let rest := line.drop operator.symbol.length
      let body := rest.dropWhile (Text.isAsciiBlank ∘ view)
      let tail := scan view false (body.dropWhile (inPath ∘ view))
      { lead := []
        occurrences :=
          { operator
            symbol := line.take operator.symbol.length
            gap := rest.takeWhile (Text.isAsciiBlank ∘ view)
            path := body.takeWhile (inPath ∘ view)
            after := tail.lead } :: tail.occurrences } := by
  rw [scan]
  split
  · next found hfound =>
    obtain rfl : found = operator := by rw [h] at hfound; exact (Option.some.inj hfound).symm
    rfl
  · next hnone =>
    rw [h] at hnone
    cases hnone

/-- What scanning gives is a division, whatever text the flag stands for. -/
theorem decomposes_scan (flag : Bool) (line : List α) :
    ∀ before, Agrees view flag before line → Decomposes view before line (scan view flag line) := by
  fun_induction scan view flag line with
  | case1 flag line operator h rest body tail ih =>
    intro before hagrees
    have hlongest : Operator.Longest view before line operator :=
      Operator.recognize_eq_some_iff.1 (hagrees ▸ h)
    have hgap : IsRun (Text.isAsciiBlank ∘ view) _ body := .of_span _ rest
    have hpath : IsRun (inPath ∘ view) _ (body.dropWhile (inPath ∘ view)) := .of_span _ body
    have hbody : body.takeWhile (inPath ∘ view) ++ body.dropWhile (inPath ∘ view) = body :=
      List.takeWhile_append_dropWhile
    have hline : line = line.take operator.symbol.length ++
        (rest.takeWhile (Text.isAsciiBlank ∘ view) ++ body) := by
      rw [List.takeWhile_append_dropWhile, List.take_append_drop]
    refine .redirection ?_ plain_nil ?_ (Operator.map_take_of_recognize h) ?_ hpath
      (ih _ (Operator.recognize_behind_path hpath))
    · rw [hbody]
      exact hline
    · rw [hbody, ← hline, List.append_nil]
      exact hlongest
    · rw [hbody]
      exact hgap
  | case2 flag h =>
    intro before _
    exact .plain plain_nil
  | case3 flag c rest h tail ih =>
    intro before hagrees
    have hnone := Operator.recognize_eq_none_iff.1 (hagrees ▸ h)
    refine (ih (before ++ [c]) ?_).cons hnone
    unfold Agrees
    rw [Operator.wordStart_concat]

/-- Plain text is passed over. -/
theorem scan_append_of_plain {flag : Bool} {text : List α} (hplain : Plain view before text rest)
    (hagrees : Agrees view flag before (text ++ rest)) :
    ∃ flag', Agrees view flag' (before ++ text) rest ∧
      scan view flag (text ++ rest) =
        { scan view flag' rest with lead := text ++ (scan view flag' rest).lead } := by
  induction text generalizing flag before with
  | nil => exact ⟨flag, by simpa using hagrees, rfl⟩
  | cons c text ih =>
    obtain ⟨hfirst, htext⟩ := plain_cons_iff.1 hplain
    have hnone : Operator.recognize view flag (c :: (text ++ rest)) = none :=
      hagrees.trans (Operator.recognize_eq_none_iff.2 hfirst)
    have hnext : Agrees view (Text.isAsciiBlank (view c)) (before ++ [c]) (text ++ rest) := by
      unfold Agrees
      rw [Operator.wordStart_concat]
    obtain ⟨flag', hagrees', hscan⟩ := ih htext hnext
    refine ⟨flag', by simpa using hagrees', ?_⟩
    rw [List.cons_append, scan_cons_of_recognize_eq_none hnone, hscan]
    rfl

/-- There is no other division than the one that is found. -/
theorem Decomposes.scan_eq {cut : Scan α} (h : Decomposes view before line cut) {flag : Bool}
    (hagrees : Agrees view flag before line) : scan view flag line = cut := by
  induction h generalizing flag with
  | plain hplain =>
    obtain ⟨flag', -, hscan⟩ := scan_append_of_plain hplain (by simpa using hagrees)
    rw [List.append_nil] at hscan
    rw [hscan, scan_nil, List.append_nil]
  | @redirection before line lead symbol gap path rest operator tail written hplain longest spelled
      gap_isRun path_isRun _ ih =>
    subst written
    obtain ⟨flag', hagrees', hscan⟩ := scan_append_of_plain hplain hagrees
    have hfound : Operator.recognize view flag' (symbol ++ (gap ++ (path ++ rest))) =
        some operator := hagrees'.trans (Operator.recognize_eq_some_iff.2 longest)
    have hlength : operator.symbol.length = symbol.length := by
      rw [← spelled, List.length_map]
    rw [hscan, scan_of_recognize_eq_some hfound, hlength, List.drop_left, List.take_left]
    dsimp only
    rw [gap_isRun.takeWhile_append, gap_isRun.dropWhile_append, path_isRun.takeWhile_append,
      path_isRun.dropWhile_append, ih (Operator.recognize_behind_path path_isRun), List.append_nil]

/-- A line has exactly one division, and scanning the line finds it. -/
theorem decomposes_iff {cut : Scan α} : Decomposes view [] line cut ↔ cut = scan view true line := by
  constructor
  · intro h
    exact (h.scan_eq rfl).symm
  · rintro rfl
    exact decomposes_scan true line [] rfl

/-! ## Parsing -/

section Parsing

variable {line : Text} {parsed : Parsed} {fault : LineFault}

theorem parse_of_incomplete?_eq_none (h : (scan id true line).incomplete? = none) :
    parse line = .ok ⟨(scan id true line).residual, (scan id true line).targets⟩ := by
  unfold parse
  dsimp only
  rw [h]

theorem parse_of_incomplete?_eq_some {o : Occurrence Char}
    (h : (scan id true line).incomplete? = some o) :
    parse line = .error (.missingPath o.operator) := by
  unfold parse
  dsimp only
  rw [h]

theorem parse_eq_ok_iff :
    parse line = .ok parsed ↔
      (∀ o ∈ (scan id true line).occurrences, o.path ≠ []) ∧
        parsed = ⟨(scan id true line).residual, (scan id true line).targets⟩ := by
  have hcomplete : (scan id true line).incomplete? = none ↔
      ∀ o ∈ (scan id true line).occurrences, o.path ≠ [] := by
    simp [Scan.incomplete?]
  rw [← hcomplete]
  cases h : (scan id true line).incomplete? with
  | none => simp [parse_of_incomplete?_eq_none h, eq_comm]
  | some o => simp [parse_of_incomplete?_eq_some h]

theorem parse_eq_error_iff :
    parse line = .error fault ↔
      ∃ earlier o later, (scan id true line).occurrences = earlier ++ o :: later ∧
        (∀ e ∈ earlier, e.path ≠ []) ∧ o.path = [] ∧ fault = .missingPath o.operator := by
  have hincomplete : ∀ o, (scan id true line).incomplete? = some o ↔
      ∃ earlier later, (scan id true line).occurrences = earlier ++ o :: later ∧
        (∀ e ∈ earlier, e.path ≠ []) ∧ o.path = [] := by
    intro o
    unfold Scan.incomplete?
    rw [List.find?_eq_some_iff_append]
    constructor
    · rintro ⟨hpath, earlier, later, hsplit, hearlier⟩
      exact ⟨earlier, later, hsplit, by simpa using hearlier, by simpa using hpath⟩
    · rintro ⟨earlier, later, hsplit, hearlier, hpath⟩
      exact ⟨by simpa using hpath, earlier, later, hsplit, by simpa using hearlier⟩
  constructor
  · intro hfault
    cases h : (scan id true line).incomplete? with
    | none =>
      rw [parse_of_incomplete?_eq_none h] at hfault
      cases hfault
    | some o =>
      obtain ⟨earlier, later, hsplit, hearlier, hpath⟩ := (hincomplete o).1 h
      rw [parse_of_incomplete?_eq_some h] at hfault
      exact ⟨earlier, o, later, hsplit, hearlier, hpath, (Except.error.inj hfault).symm⟩
  · rintro ⟨earlier, o, later, hsplit, hearlier, hpath, rfl⟩
    exact parse_of_incomplete?_eq_some ((hincomplete o).2 ⟨earlier, later, hsplit, hearlier, hpath⟩)

end Parsing

/-- The parser accepts exactly its grammar and loses nothing.  The line has one division into plain
text and redirections, whatever is in it.  If each redirection has a path, then the residual is the
plain text and the targets are the redirections applied in order.  Otherwise the first redirection
without a path is named. -/
theorem parse_reads_decomposition (line : Text) :
    ∃ cut : Scan Char,
      (∀ other, Decomposes id [] line other ↔ other = cut) ∧
      cut.lead ++ cut.occurrences.flatMap (fun o => o.symbol ++ (o.gap ++ (o.path ++ o.after))) =
        line ∧
      ((∃ parsed, parse line = .ok parsed) ↔ ∀ o ∈ cut.occurrences, o.path ≠ []) ∧
      (∀ parsed, parse line = .ok parsed →
        parsed.residual = cut.lead ++ cut.occurrences.flatMap (·.after) ∧
          parsed.targets =
            cut.occurrences.foldl (fun targets o => targets.set o.operator o.path) .empty) ∧
      (∀ fault, parse line = .error fault →
        ∃ earlier o later, cut.occurrences = earlier ++ o :: later ∧
          (∀ e ∈ earlier, e.path ≠ []) ∧ o.path = [] ∧
            fault.message =
              "missing filename after `".toList ++ o.operator.symbol ++ "`".toList) := by
  refine ⟨scan id true line, fun other => decomposes_iff, Scan.written_scan id true line, ?_, ?_, ?_⟩
  · constructor
    · rintro ⟨parsed, hparsed⟩
      exact (parse_eq_ok_iff.1 hparsed).1
    · intro hpaths
      exact ⟨_, parse_eq_ok_iff.2 ⟨hpaths, rfl⟩⟩
  · intro parsed hparsed
    obtain ⟨-, rfl⟩ := parse_eq_ok_iff.1 hparsed
    exact ⟨rfl, rfl⟩
  · intro fault hfault
    obtain ⟨earlier, o, later, hsplit, hearlier, hpath, rfl⟩ := parse_eq_error_iff.1 hfault
    exact ⟨earlier, o, later, hsplit, hearlier, hpath, rfl⟩

end LineShell.Redirection
