import LineShell.Proofs.Decomposition

/-!
# Targets as they are written

Which targets can a line ask for?  A combined target excludes targets of the outputs; standard error
is appended to only where it took over a combined target, and then standard output was redirected
away from that one; and a path holds path characters.  `Targets.WellFormed` says so, and the
targets of every line that is parsed are of that kind.

Conversely `Targets.render` writes a line for any well-formed targets and any words, and parsing
this line gives the same targets and words back.  The division of the line is written down along
with it (`division`), and since a line has only one division, it is the one that the parser finds.
-/

namespace LineShell

/-! ## Words with spaces between them -/

namespace Text

theorem words_append_spaces (text : Text) (n : Nat) :
    words (text ++ List.replicate n ' ') = words text := by
  induction n generalizing text with
  | zero => rw [List.replicate_zero, List.append_nil]
  | succ n ih =>
    have hspaces := ih []
    rw [List.nil_append, words_nil] at hspaces
    rw [List.replicate_succ, words_append_blank isBlank_space, hspaces, List.append_nil]

/-- Words with spaces between them are read back. -/
theorem words_intercalate (ws : List Text) (h : ∀ w ∈ ws, IsPlainWord w) :
    words ([' '].intercalate ws) = ws := by
  induction ws with
  | nil => exact words_nil
  | cons w rest ih =>
    obtain ⟨hw, hrest⟩ := List.forall_mem_cons.1 h
    have hword : words w = [w] := hw.words_eq
    cases rest with
    | nil => rw [List.intercalate_singleton, hword]
    | cons w' rest =>
      rw [List.intercalate_cons_cons, List.append_assoc, List.singleton_append,
        words_append_blank isBlank_space, hword, ih hrest]
      rfl

theorem not_mem_intercalate {c : Char} (hspace : c ≠ ' ') {ws : List Text} (h : ∀ w ∈ ws, c ∉ w) :
    c ∉ [' '].intercalate ws := by
  induction ws with
  | nil => simp
  | cons w rest ih =>
    obtain ⟨hw, hrest⟩ := List.forall_mem_cons.1 h
    cases rest with
    | nil => rwa [List.intercalate_singleton]
    | cons w' rest =>
      rw [List.intercalate_cons_cons]
      simp [hw, hspace, ih hrest]

end Text

namespace Redirection

/-! ## Well-formed targets -/

/-- A text that can be the path of a redirection. -/
def IsPath (path : Text) : Prop := path ≠ [] ∧ ∀ c ∈ path, inPath c = true

namespace Targets

variable {targets : Targets} {operator : Operator} {path : Text}

/-- The target takes the place of an output. -/
def Has (targets : Targets) (target : Target) : Prop :=
  targets.stdout = some target ∨ targets.stderr = some target ∨ targets.combined = some target

/-- The targets that a line can ask for. -/
structure WellFormed (targets : Targets) : Prop where
  combined_alone : targets.combined ≠ none → targets.stdout = none ∧ targets.stderr = none
  stdout_of_append : ∀ path, targets.stderr = some ⟨path, .append⟩ → targets.stdout ≠ none
  input_isPath : ∀ path, targets.stdin = some path → IsPath path
  output_isPath : ∀ target, targets.Has target → IsPath target.path

theorem wellFormed_empty : empty.WellFormed where
  combined_alone h := absurd rfl h
  stdout_of_append _ h := nomatch h
  input_isPath _ h := nomatch h
  output_isPath target h := by
    rcases h with h | h | h <;> cases h

theorem has_of_or {target : Target} {own : Option Target}
    (hown : ∀ target, own = some target → targets.Has target)
    (h : targets.combined.or own = some target) : targets.Has target := by
  rcases Option.or_eq_some_iff.1 h with hcombined | ⟨-, hkept⟩
  · exact .inr (.inr hcombined)
  · exact hown target hkept

/-- A redirection brings in no other target than its own. -/
theorem has_of_set {target : Target} (h : (targets.set operator path).Has target) :
    target.path = path ∨ targets.Has target := by
  cases operator with
  | input => exact .inr h
  | output mode =>
    rcases h with hout | herr | hcombined
    · cases hout
      exact .inl rfl
    · exact .inr (has_of_or (fun _ hkept => .inr (.inl hkept)) herr)
    · cases hcombined
  | error =>
    rcases h with hout | herr | hcombined
    · exact .inr (has_of_or (fun _ hkept => .inl hkept) hout)
    · cases herr
      exact .inl rfl
    · cases hcombined
  | combined mode =>
    rcases h with hout | herr | hcombined
    · cases hout
    · cases herr
    · cases hcombined
      exact .inl rfl

theorem WellFormed.set (h : targets.WellFormed) (hpath : IsPath path) (operator : Operator) :
    (targets.set operator path).WellFormed where
  combined_alone := by
    cases operator with
    | input => exact h.combined_alone
    | output mode => exact fun hcombined => absurd rfl hcombined
    | error => exact fun hcombined => absurd rfl hcombined
    | combined mode => exact fun _ => ⟨rfl, rfl⟩
  stdout_of_append := by
    cases operator with
    | input => exact h.stdout_of_append
    | output mode => exact fun _ _ => Option.some_ne_none _
    | error =>
      intro other happend
      cases happend
    | combined mode =>
      intro other happend
      cases happend
  input_isPath := by
    cases operator with
    | input =>
      intro other hother
      cases hother
      exact hpath
    | output mode => exact h.input_isPath
    | error => exact h.input_isPath
    | combined mode => exact h.input_isPath
  output_isPath target htarget := by
    rcases has_of_set htarget with hown | hbefore
    · rw [hown]
      exact hpath
    · exact h.output_isPath target hbefore

end Targets

theorem wellFormed_foldl_set {occurrences : List (Occurrence Char)} {targets : Targets}
    (htargets : targets.WellFormed) (h : ∀ o ∈ occurrences, IsPath o.path) :
    (occurrences.foldl (fun targets o => targets.set o.operator o.path) targets).WellFormed := by
  induction occurrences generalizing targets with
  | nil => exact htargets
  | cons o rest ih =>
    obtain ⟨ho, hrest⟩ := List.forall_mem_cons.1 h
    exact ih (htargets.set ho o.operator) hrest

theorem wellFormed_of_parse {line : Text} {parsed : Parsed} (h : parse line = .ok parsed) :
    parsed.targets.WellFormed := by
  obtain ⟨hpaths, rfl⟩ := parse_eq_ok_iff.1 h
  have hcut : Decomposes id [] line (scan id true line) := decomposes_iff.2 rfl
  exact wellFormed_foldl_set Targets.wellFormed_empty
    fun o ho => ⟨hpaths o ho, hcut.inPath_of_mem o ho⟩

/-! ## Writing targets -/

/-- Redirections that set the targets, in the order in which they are written.  A standard error
that is appended to is first written as a combined target. -/
def Targets.redirections (targets : Targets) : List (Operator × Text) :=
  let input := (targets.stdin.map fun path => (Operator.input, path)).toList
  let output := (targets.stdout.map fun target => (Operator.output target.mode, target.path)).toList
  match targets.combined, targets.stderr with
  | some both, _ => input ++ [(.combined both.mode, both.path)]
  | none, some ⟨path, .append⟩ => input ++ (.combined .append, path) :: output
  | none, some ⟨path, .truncate⟩ => input ++ output ++ [(.error, path)]
  | none, none => input ++ output

/-- Redirections as they are written behind a command, with spaces around the operators. -/
def writeRedirections (redirections : List (Operator × Text)) : Text :=
  redirections.flatMap fun r => ' ' :: (r.1.symbol ++ ' ' :: r.2)

/-- A line of the words and the redirections. -/
def Targets.render (targets : Targets) (words : List Text) : Text :=
  [' '].intercalate words ++ writeRedirections targets.redirections

theorem Targets.WellFormed.foldl_redirections {targets : Targets} (h : targets.WellFormed) :
    targets.redirections.foldl (fun targets r => targets.set r.1 r.2) .empty = targets := by
  obtain ⟨stdin, stdout, stderr, combined⟩ := targets
  cases combined with
  | some both =>
    obtain ⟨hout, herr⟩ : stdout = none ∧ stderr = none :=
      h.combined_alone (Option.some_ne_none both)
    subst hout herr
    cases stdin <;> rfl
  | none =>
    rcases stderr with _ | ⟨path, _ | _⟩
    · cases stdin <;> cases stdout <;> rfl
    · cases stdin <;> cases stdout <;> rfl
    · cases stdout with
      | none => exact absurd rfl (h.stdout_of_append path rfl)
      | some target => cases stdin <;> rfl

theorem Targets.WellFormed.isPath_of_mem {targets : Targets} (h : targets.WellFormed)
    {r : Operator × Text} (hr : r ∈ targets.redirections) : IsPath r.2 := by
  have hinput :
      r ∈ (targets.stdin.map fun path => (Operator.input, path)).toList → IsPath r.2 := by
    intro hr
    obtain ⟨path, hpath, rfl⟩ := Option.map_eq_some_iff.1 (Option.mem_toList.1 hr)
    exact h.input_isPath path hpath
  have houtput :
      r ∈ (targets.stdout.map fun target => (Operator.output target.mode, target.path)).toList →
        IsPath r.2 := by
    intro hr
    obtain ⟨target, htarget, rfl⟩ := Option.map_eq_some_iff.1 (Option.mem_toList.1 hr)
    exact h.output_isPath target (.inl htarget)
  unfold redirections at hr
  dsimp only at hr
  split at hr
  · next both hboth =>
    rcases List.mem_append.1 hr with hr | hr
    · exact hinput hr
    · rw [List.mem_singleton.1 hr]
      exact h.output_isPath both (.inr (.inr hboth))
  · next path _ herr =>
    rcases List.mem_append.1 hr with hr | hr
    · exact hinput hr
    · rcases List.mem_cons.1 hr with rfl | hr
      · exact h.output_isPath ⟨path, .append⟩ (.inr (.inl herr))
      · exact houtput hr
  · next path _ herr =>
    rcases List.mem_append.1 hr with hr | hr
    · exact (List.mem_append.1 hr).elim hinput houtput
    · rw [List.mem_singleton.1 hr]
      exact h.output_isPath ⟨path, .truncate⟩ (.inr (.inl herr))
  · exact (List.mem_append.1 hr).elim hinput houtput

/-! ## The division of a written line -/

section Division

variable {text rest : Text} {operator : Operator}

theorem Operator.space_not_mem_symbol (operator : Operator) : ' ' ∉ operator.symbol := by
  rcases operator with _ | (_ | _) | _ | (_ | _) <;> decide

/-- A beginning without a character ends before the first of its kind. -/
theorem isPrefix_of_not_mem {α : Type} {start left right : List α} {c : α}
    (h : start <+: left ++ c :: right) (hc : c ∉ start) : start <+: left := by
  by_cases hlength : start.length ≤ left.length
  · exact List.prefix_of_prefix_length_le h (List.prefix_append left _) hlength
  · have hleft : left ++ [c] <+: left ++ c :: right := ⟨right, by simp⟩
    have hlonger : left ++ [c] <+: start := by
      refine List.prefix_of_prefix_length_le hleft h ?_
      rw [List.length_append, List.length_singleton]
      omega
    exact absurd (hlonger.subset (by simp)) hc

/-- A text without angle brackets is plain at the end of a line. -/
theorem plain_of_not_mem (hless : '<' ∉ text) (hgreater : '>' ∉ text) (before : Text) :
    Plain id before text [] := by
  rintro start later rfl - operator ⟨hsymbol, -⟩
  rw [List.mem_append, not_or] at hless hgreater
  rw [List.append_nil, List.map_id] at hsymbol
  exact operator.not_symbol_isPrefix hless.2 hgreater.2 hsymbol

/-- A space behind the text keeps it apart from what follows. -/
theorem plain_space_of_not_mem (hless : '<' ∉ text) (hgreater : '>' ∉ text) (before rest : Text) :
    Plain id before (text ++ [' ']) rest := by
  rintro start later htext hlater operator ⟨hsymbol, -⟩
  obtain ⟨kept, c, rfl⟩ := (List.eq_nil_or_concat later).resolve_left hlater
  rw [List.concat_eq_append, ← List.append_assoc] at htext
  obtain ⟨rfl, hc⟩ := List.append_inj' htext rfl
  obtain rfl : ' ' = c := List.singleton_inj.1 hc
  rw [List.mem_append, not_or] at hless hgreater
  rw [List.concat_eq_append, List.append_assoc, List.singleton_append, List.map_id] at hsymbol
  exact operator.not_symbol_isPrefix hless.2 hgreater.2
    (isPrefix_of_not_mem hsymbol operator.space_not_mem_symbol)

/-- An operator with spaces around it is the longest one there. -/
theorem Operator.longest_of_space (before rest : Text) (operator : Operator) :
    Longest id (before ++ [' ']) (operator.symbol ++ ' ' :: rest) operator where
  stands := by
    refine ⟨?_, fun _ => ?_⟩
    · rw [List.map_id]
      exact List.prefix_append _ _
    · rw [wordStart_concat]
      rfl
  length_le other hother := by
    have hsymbol := hother.1
    rw [List.map_id] at hsymbol
    exact (isPrefix_of_not_mem hsymbol other.space_not_mem_symbol).length_le

/-- The division of a text with redirections written behind it. -/
def division (text : Text) : List (Operator × Text) → Scan Char
  | [] => ⟨text, []⟩
  | (operator, path) :: rest =>
    { lead := text ++ [' ']
      occurrences :=
        { operator, symbol := operator.symbol, gap := [' '], path, after := (division [] rest).lead } ::
          (division [] rest).occurrences }

theorem isRun_path {path : Text} (hpath : IsPath path) (redirections : List (Operator × Text)) :
    IsRun (inPath ∘ id) path (writeRedirections redirections) where
  all := hpath.2
  maximal := by
    cases redirections with
    | nil => exact fun c hc => nomatch hc
    | cons r rest =>
      rintro c ⟨⟩
      decide

theorem isRun_gap {path : Text} (hpath : IsPath path) (rest : Text) :
    IsRun (Text.isAsciiBlank ∘ id) [' '] (path ++ rest) where
  all c hc := by
    rw [List.mem_singleton.1 hc]
    decide
  maximal c hc := by
    obtain ⟨first, later, rfl⟩ := List.exists_cons_of_ne_nil hpath.1
    obtain rfl : first = c := by simpa using hc
    exact isAsciiBlank_of_inPath (hpath.2 first List.mem_cons_self)

theorem decomposes_division (hless : '<' ∉ text) (hgreater : '>' ∉ text)
    {redirections : List (Operator × Text)} (hpaths : ∀ r ∈ redirections, IsPath r.2)
    (before : Text) :
    Decomposes id before (text ++ writeRedirections redirections) (division text redirections) := by
  induction redirections generalizing text before with
  | nil =>
    rw [writeRedirections, List.flatMap_nil, List.append_nil]
    exact .plain (plain_of_not_mem hless hgreater before)
  | cons r rest ih =>
    obtain ⟨operator, path⟩ := r
    obtain ⟨hpath, hrest⟩ := List.forall_mem_cons.1 hpaths
    refine .redirection ?_
      (plain_space_of_not_mem hless hgreater before _) ?_ (List.map_id _) (isRun_gap hpath _)
      (isRun_path hpath rest) (ih List.not_mem_nil List.not_mem_nil hrest _)
    · simp [writeRedirections]
    · rw [← List.append_assoc]
      exact operator.longest_of_space _ _

theorem residual_division (text : Text) (redirections : List (Operator × Text)) :
    (division text redirections).residual =
      text ++ List.replicate redirections.length ' ' := by
  induction redirections generalizing text with
  | nil => simp [division, Scan.residual]
  | cons r rest ih =>
    have hrest : (division [] rest).lead ++
        (division [] rest).occurrences.flatMap (·.after) = List.replicate rest.length ' ' := ih []
    simp [division, Scan.residual, hrest, List.replicate_succ]

theorem foldl_division {β : Type} (f : β → Operator → Text → β) (text : Text)
    (redirections : List (Operator × Text)) (b : β) :
    (division text redirections).occurrences.foldl (fun b o => f b o.operator o.path) b =
      redirections.foldl (fun b r => f b r.1 r.2) b := by
  induction redirections generalizing text b with
  | nil => rfl
  | cons r rest ih => exact ih [] _

theorem path_ne_nil_division {redirections : List (Operator × Text)}
    (hpaths : ∀ r ∈ redirections, IsPath r.2) :
    ∀ o ∈ (division text redirections).occurrences, o.path ≠ [] := by
  induction redirections generalizing text with
  | nil => exact fun o ho => nomatch ho
  | cons r rest ih =>
    obtain ⟨hpath, hrest⟩ := List.forall_mem_cons.1 hpaths
    exact List.forall_mem_cons.2 ⟨hpath.1, ih hrest⟩

end Division

/-! ## Reading back -/

/-- What is written for well-formed targets is parsed as these targets. -/
theorem Targets.WellFormed.parse_render {targets : Targets} (h : targets.WellFormed)
    {words : List Text} (hwords : ∀ w ∈ words, Text.IsPlainWord w) :
    parse (targets.render words) =
      .ok ⟨[' '].intercalate words ++ List.replicate targets.redirections.length ' ', targets⟩ := by
  have hless := Text.not_mem_intercalate (by decide : '<' ≠ ' ') fun w hw => (hwords w hw).not_less
  have hgreater :=
    Text.not_mem_intercalate (by decide : '>' ≠ ' ') fun w hw => (hwords w hw).not_greater
  have hpaths : ∀ r ∈ targets.redirections, IsPath r.2 := fun r hr => h.isPath_of_mem hr
  have hcut := decomposes_iff.1 (decomposes_division hless hgreater hpaths [])
  rw [parse_eq_ok_iff, render, ← hcut, residual_division]
  refine ⟨path_ne_nil_division hpaths, ?_⟩
  have htargets : (division ([' '].intercalate words) targets.redirections).targets = targets :=
    (foldl_division Targets.set _ _ _).trans h.foldl_redirections
  rw [htargets]

/-- The parser returns the well-formed targets and no others.  Words and well-formed targets that are
written down as a line are read back from it, each as they were. -/
theorem parse_image_wellFormed :
    (∀ targets : Targets,
      targets.WellFormed ↔ ∃ line residual, parse line = .ok ⟨residual, targets⟩) ∧
      ∀ (targets : Targets) (words : List Text), targets.WellFormed → words.length ≤ maxWords →
        (∀ w ∈ words, Text.IsPlainWord w) →
          ∃ residual, parse (targets.render words) = .ok ⟨residual, targets⟩ ∧
            Text.words residual = words ∧
              CommandLine.parse (targets.render words) =
                .ok ⟨targets.render words, words, targets⟩ := by
  constructor
  · intro targets
    constructor
    · intro h
      exact ⟨targets.render [], _, h.parse_render fun w hw => nomatch hw⟩
    · rintro ⟨line, residual, hparse⟩
      exact wellFormed_of_parse hparse
  · intro targets words h hlength hwords
    have hparse := h.parse_render hwords
    have hread : Text.words ([' '].intercalate words ++
        List.replicate targets.redirections.length ' ') = words := by
      rw [Text.words_append_spaces, Text.words_intercalate words hwords]
    refine ⟨_, hparse, hread, CommandLine.parse_eq_ok_iff.2 ⟨_, hparse, ?_, ?_⟩⟩
    · rwa [hread]
    · rw [hread]

/-- Paths may look like parts of operators and references. -/
theorem parse_image_wellFormed_append_stderr :
    let targets : Targets :=
      { stdin := some "2".toList
        stdout := some ⟨"$A".toList, .append⟩
        stderr := some ⟨"&x".toList, .append⟩ }
    let words : List Text := ["make".toList, "a&".toList]
    let line : Text := "make a& < 2 &>> &x >> $A".toList
    targets.WellFormed ∧ targets.render words = line ∧
      CommandLine.parse line = .ok ⟨line, words, targets⟩ := by
  intro targets words line
  have hline : targets.render words = line := by decide +kernel
  have hparse : parse line = .ok ⟨"make a&   ".toList, targets⟩ := by decide +kernel
  have hwell : targets.WellFormed := (parse_image_wellFormed.1 targets).2 ⟨_, _, hparse⟩
  have hwords : ∀ w ∈ words, Text.IsPlainWord w := by decide +kernel
  obtain ⟨residual, -, -, hread⟩ :=
    parse_image_wellFormed.2 targets words hwell (by decide) hwords
  rw [hline] at hread
  exact ⟨hwell, hline, hread⟩

end Redirection

end LineShell
