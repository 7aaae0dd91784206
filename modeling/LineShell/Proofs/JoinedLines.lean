import LineShell.Proofs.RespelledBlanks
import LineShell.Proofs.WrittenTargets

/-!
# Two lines with a blank between them

If every redirection of a line has its path, then the line can be continued behind a blank, and what
is written there is read as if it stood alone.  No symbol has a blank in it, so nothing that stands in
front of the blank is seen differently (`Operator.stands_append_blank_iff`), and the path in front of
the blank ends there.  Behind it a word starts, as at the beginning of a line.  So the division of the
whole line is the division of the front and then that of the back (`Decomposes.append_blank`).

`Targets.overriddenBy` says what comes out of two sets of targets.  Applying redirections one by one
behind others is overriding the targets of the earlier ones by those of the later ones
(`foldl_set_eq_overriddenBy`).
-/

namespace LineShell.Redirection

variable {before text rest more front back : Text} {c : Char} {cut other : Scan Char}

/-! ## What stands in front of a blank -/

namespace Operator

variable {operator : Operator}

/-- An operator in front of a blank ends there. -/
theorem stands_append_blank_iff (hc : Text.isAsciiBlank c = true) :
    Stands id before (text ++ c :: more) operator ↔ Stands id before text operator := by
  have hfree : c ∉ operator.symbol := by
    intro hmem
    have hsolid : Text.isBlank c = false := isBlank_of_mem_symbol hmem
    simp [Text.isBlank_of_isAsciiBlank hc] at hsolid
  have hsymbol : operator.symbol <+: text ++ c :: more ↔ operator.symbol <+: text :=
    ⟨fun h => isPrefix_of_not_mem h hfree, fun h => h.trans (List.prefix_append _ _)⟩
  simp [Stands, hsymbol]

/-- No operator begins with a blank. -/
theorem not_stands_blank (hc : Text.isAsciiBlank c = true) :
    ¬ Stands id before (c :: more) operator := by
  intro hstands
  rw [← List.nil_append (c :: more), stands_append_blank_iff hc] at hstands
  simp [Stands, operator.symbol_ne_nil] at hstands

theorem Longest.append_blank (h : Longest id before text operator)
    (hc : Text.isAsciiBlank c = true) (more : Text) :
    Longest id before (text ++ c :: more) operator where
  stands := (stands_append_blank_iff hc).2 h.stands
  length_le other hother := h.length_le other ((stands_append_blank_iff hc).1 hother)

end Operator

theorem Plain.append_blank (h : Plain id before text rest) (hc : Text.isAsciiBlank c = true)
    (more : Text) : Plain id before text (rest ++ c :: more) := by
  intro start later htext hlater operator hstands
  rw [← List.append_assoc, Operator.stands_append_blank_iff hc] at hstands
  exact h start later htext hlater operator hstands

/-- A run ends where it did if the continuation does not go on with it. -/
theorem IsRun.append {p : Char → Bool} {run : Text} (h : IsRun p run rest)
    (hmore : rest = [] → ∀ d ∈ more.head?, p d = false) : IsRun p run (rest ++ more) where
  all := h.all
  maximal := by
    by_cases hrest : rest = []
    · simpa [hrest] using hmore hrest
    · intro d hd
      rw [List.head?_append_of_ne_nil _ hrest] at hd
      exact h.maximal d hd

/-! ## The division of the whole line -/

/-- Plain text in front of a division goes to its front. -/
theorem Decomposes.prepend (hplain : Plain id before text back)
    (h : Decomposes id (before ++ text) back other) :
    Decomposes id before (text ++ back) { other with lead := text ++ other.lead } := by
  induction text generalizing before with
  | nil => simpa using h
  | cons c text ih =>
    obtain ⟨hfirst, htext⟩ := plain_cons_iff.1 hplain
    have hrest : Decomposes id (before ++ [c]) (text ++ back)
        { other with lead := text ++ other.lead } := ih htext (by simpa using h)
    exact hrest.cons hfirst

/-- The redirections of a division without their place in the line. -/
def Scan.redirections (cut : Scan Char) : List (Operator × Text) :=
  cut.occurrences.map fun o => (o.operator, o.path)

/-- Behind a blank the division goes on with the division of the back. -/
theorem Decomposes.append_blank (h : Decomposes id before front cut)
    (hpaths : ∀ r ∈ cut.redirections, r.2 ≠ []) (hc : Text.isAsciiBlank c = true)
    (hback : Decomposes id (before ++ front ++ [c]) back other) :
    ∃ whole : Scan Char,
      Decomposes id before (front ++ c :: back) whole ∧
        whole.residual = cut.residual ++ c :: other.residual ∧
        whole.redirections = cut.redirections ++ other.redirections := by
  induction h with
  | @plain before line hplain =>
    have hblank : Decomposes id (before ++ line) (c :: back) { other with lead := c :: other.lead } :=
      hback.cons fun operator => Operator.not_stands_blank hc
    have hplain' : Plain id before line (c :: back) := hplain.append_blank hc back
    refine ⟨_, hblank.prepend hplain', ?_, ?_⟩
    · simp [Scan.residual]
    · simp [Scan.redirections]
  | @redirection before line lead symbol gap path rest operator tail written hplain longest spelled
      gap_isRun path_isRun _ ih =>
    have hpath : path ≠ [] := hpaths (operator, path) (by simp [Scan.redirections])
    have htail : ∀ r ∈ tail.redirections, r.2 ≠ [] := fun r hr =>
      hpaths r (List.mem_cons_of_mem _ hr)
    have hwritten : line ++ c :: back =
        lead ++ (symbol ++ (gap ++ (path ++ (rest ++ c :: back)))) := by simp [written]
    have hbehind : symbol ++ (gap ++ (path ++ (rest ++ c :: back))) =
        symbol ++ (gap ++ (path ++ rest)) ++ c :: back := by simp
    -- The path is not empty, so the run of blanks in front of it ends in the front already.
    have hgap : IsRun (Text.isAsciiBlank ∘ id) gap (path ++ (rest ++ c :: back)) := by
      rw [← List.append_assoc]
      exact gap_isRun.append fun hnil => absurd (List.append_eq_nil_iff.1 hnil).1 hpath
    have hrun : IsRun (inPath ∘ id) path (rest ++ c :: back) :=
      path_isRun.append fun _ => by simp [inPath, hc]
    obtain ⟨whole, hwhole, hresidual, hredirections⟩ := ih htail (by simpa [written] using hback)
    refine ⟨_, .redirection hwritten ?_ ?_ spelled hgap hrun hwhole, ?_, ?_⟩
    · rw [hbehind]
      exact hplain.append_blank hc back
    · rw [hbehind]
      exact longest.append_blank hc back
    · simpa [Scan.residual] using hresidual
    · simpa [Scan.redirections] using hredirections

/-- A line is divided behind a blank as if it stood alone. -/
theorem decomposes_behind_blank (before : Text) (hc : Text.isAsciiBlank c = true) (line : Text) :
    Decomposes id (before ++ [c]) line (scan id true line) := by
  refine decomposes_scan true line (before ++ [c]) ?_
  have hstart : Operator.wordStart id (before ++ [c]) = true := by
    rw [Operator.wordStart_concat]
    exact hc
  rw [Agrees, hstart]

/-! ## What the parser makes of a division -/

/-- The targets of redirections that are applied one after the other. -/
def Targets.setAll (targets : Targets) (redirections : List (Operator × Text)) : Targets :=
  redirections.foldl (fun targets r => targets.set r.1 r.2) targets

/-- What parsing a line with this division gives. -/
def Scan.outcome (cut : Scan Char) : Except LineFault Parsed :=
  match cut.redirections.find? (·.2.isEmpty) with
  | some r => .error (.missingPath r.1)
  | none => .ok ⟨cut.residual, Targets.empty.setAll cut.redirections⟩

theorem Decomposes.parse_eq (h : Decomposes id [] text cut) : parse text = cut.outcome := by
  obtain rfl := decomposes_iff.1 h
  have htargets : Targets.empty.setAll (scan id true text).redirections =
      (scan id true text).targets := by
    simp [Targets.setAll, Scan.redirections, Scan.targets, List.foldl_map]
  have hfirst : (scan id true text).redirections.find? (·.2.isEmpty) =
      (scan id true text).incomplete?.map fun o => (o.operator, o.path) := by
    rw [Scan.redirections, Scan.incomplete?, List.find?_map]
    rfl
  rw [Scan.outcome, htargets, hfirst]
  cases hcase : (scan id true text).incomplete? with
  | none => exact parse_of_incomplete?_eq_none hcase
  | some o => exact parse_of_incomplete?_eq_some hcase

/-! ## Overriding targets -/

namespace Targets

variable {earlier later : Targets}

/-- The targets of a line that is continued by redirections with targets of their own.  Each stream
has the later target, if there is one.  If only one output is redirected later, then a combined target
stays with the other one. -/
def overriddenBy (earlier later : Targets) : Targets :=
  let stdin := later.stdin.or earlier.stdin
  match later.combined with
  | some both => { stdin, combined := some both }
  | none =>
    if later.stdout = none ∧ later.stderr = none then { earlier with stdin }
    else
      { stdin
        stdout := later.stdout.or (earlier.stdout.or earlier.combined)
        stderr := later.stderr.or (earlier.stderr.or earlier.combined) }

theorem overriddenBy_empty (earlier : Targets) : earlier.overriddenBy .empty = earlier := by
  simp [overriddenBy, empty]

/-- Overriding by one more redirection is overriding first and applying it then.  The two sides take
a combined target in a different order, but it never stands beside another one. -/
theorem overriddenBy_set (hearlier : earlier.combined ≠ none →
      earlier.stdout = none ∧ earlier.stderr = none) (operator : Operator) (path : Text) :
    earlier.overriddenBy (later.set operator path) = (earlier.overriddenBy later).set operator path := by
  have hcomm : ∀ own, (earlier.combined ≠ none → own = none) →
      own.or earlier.combined = earlier.combined.or own := by
    intro own hown
    cases hcombined : earlier.combined with
    | none => simp
    | some both => simp [hown (by simp [hcombined])]
  have hout := hcomm earlier.stdout fun h => (hearlier h).1
  have herr := hcomm earlier.stderr fun h => (hearlier h).2
  cases hcombined : later.combined with
  | some both => cases operator <;> simp [overriddenBy, set, hcombined]
  | none =>
    by_cases hnone : later.stdout = none ∧ later.stderr = none
    · cases operator <;> simp [overriddenBy, set, hcombined, hnone, hout, herr]
    · cases operator <;> simp [overriddenBy, set, hcombined, hnone]

/-- Redirections behind others override the targets of those. -/
theorem setAll_eq_overriddenBy
    (hearlier : earlier.combined ≠ none → earlier.stdout = none ∧ earlier.stderr = none)
    (redirections : List (Operator × Text)) :
    earlier.setAll redirections = earlier.overriddenBy (empty.setAll redirections) := by
  induction redirections using List.reverseRecOn with
  | nil => exact (overriddenBy_empty earlier).symm
  | append_singleton redirections r ih =>
    have hconcat (targets : Targets) :
        targets.setAll (redirections ++ [r]) = (targets.setAll redirections).set r.1 r.2 := by
      simp [setAll]
    rw [hconcat, hconcat, overriddenBy_set hearlier, ih]

end Targets

/-! ## Parsing the whole line -/

theorem Scan.outcome_eq_ok_iff {parsed : Parsed} :
    cut.outcome = .ok parsed ↔
      (∀ r ∈ cut.redirections, r.2 ≠ []) ∧
        parsed = ⟨cut.residual, Targets.empty.setAll cut.redirections⟩ := by
  have hcomplete : cut.redirections.find? (·.2.isEmpty) = none ↔
      ∀ r ∈ cut.redirections, r.2 ≠ [] := by simp
  rw [← hcomplete]
  cases hfirst : cut.redirections.find? (·.2.isEmpty) with
  | none => simp [Scan.outcome, hfirst, eq_comm]
  | some r => simp [Scan.outcome, hfirst]

/-- If the front is complete, then the first redirection without a path is that of the back. -/
theorem Scan.outcome_of_append {whole : Scan Char} {parsed : Parsed}
    (hcut : cut.outcome = .ok parsed)
    (halone : parsed.targets.combined ≠ none →
      parsed.targets.stdout = none ∧ parsed.targets.stderr = none)
    (hresidual : whole.residual = cut.residual ++ c :: other.residual)
    (hredirections : whole.redirections = cut.redirections ++ other.redirections) :
    whole.outcome = other.outcome.map fun behind =>
      { residual := parsed.residual ++ c :: behind.residual
        targets := parsed.targets.overriddenBy behind.targets } := by
  obtain ⟨hpaths, rfl⟩ := Scan.outcome_eq_ok_iff.1 hcut
  have hnone : cut.redirections.find? (·.2.isEmpty) = none := by simpa using hpaths
  have hfirst : whole.redirections.find? (·.2.isEmpty) =
      other.redirections.find? (·.2.isEmpty) := by
    rw [hredirections, List.find?_append, hnone, Option.none_or]
  have htargets : Targets.empty.setAll whole.redirections =
      (Targets.empty.setAll cut.redirections).overriddenBy
        (Targets.empty.setAll other.redirections) := by
    rw [← Targets.setAll_eq_overriddenBy halone, hredirections]
    simp [Targets.setAll]
  rw [Scan.outcome, Scan.outcome, hfirst, htargets, hresidual]
  cases other.redirections.find? (·.2.isEmpty) with
  | none => rfl
  | some r => rfl

/-- Parsing can be cut at a space.  If the front of a line is parsed, then the whole line fails exactly
as its back does.  Otherwise the residuals stand on both sides of the space, and the targets of the
back override those of the front. -/
theorem parse_append_space {front back : Text} {parsed : Parsed} (h : parse front = .ok parsed) :
    (∀ fault, parse (front ++ ' ' :: back) = .error fault ↔ parse back = .error fault) ∧
      ∀ behind, parse back = .ok behind →
        parse (front ++ ' ' :: back) =
          .ok
            { residual := parsed.residual ++ ' ' :: behind.residual
              targets := parsed.targets.overriddenBy behind.targets } := by
  have hspace : Text.isAsciiBlank ' ' = true := by decide
  have hfront : Decomposes id [] front (scan id true front) := decomposes_iff.2 rfl
  have hback : Decomposes id [] back (scan id true back) := decomposes_iff.2 rfl
  have hcut : (scan id true front).outcome = .ok parsed := hfront.parse_eq.symm.trans h
  obtain ⟨whole, hwhole, hresidual, hredirections⟩ :=
    hfront.append_blank (Scan.outcome_eq_ok_iff.1 hcut).1 hspace
      (decomposes_behind_blank ([] ++ front) hspace back)
  have hjoined := Scan.outcome_of_append hcut (wellFormed_of_parse h).combined_alone hresidual
    hredirections
  rw [← hwhole.parse_eq, ← hback.parse_eq] at hjoined
  cases hparse : parse back with
  | error fault => simp [hjoined, hparse, Except.map]
  | ok behind => simp [hjoined, hparse, Except.map]

/-- The front sends both outputs to `b`, and the back takes standard error away from it, with the
operator that a word in front of it would hide.  A back without a path fails the whole line. -/
theorem parse_append_space_takes_error :
    let front : Text := "make < a &>> b c".toList
    let back : Text := "2> d e".toList
    let parsed : Parsed :=
      { residual := "make   c".toList
        targets :=
          { Targets.empty with stdin := some ['a'], combined := some ⟨['b'], .append⟩ } }
    parse front = .ok parsed ∧
      parse (front ++ ' ' :: back) =
        .ok
          { residual := "make   c  e".toList
            targets :=
              { stdin := some ['a']
                stdout := some ⟨['b'], .append⟩
                stderr := some ⟨['d'], .truncate⟩ } } ∧
      parse (front ++ ' ' :: "x >".toList) = .error (.missingPath (.output .truncate)) := by
  intro front back parsed
  have hfront : parse front = .ok parsed := by decide +kernel
  have hback : parse back =
      .ok
        { residual := " e".toList
          targets := { Targets.empty with stderr := some ⟨['d'], .truncate⟩ } } := by
    decide +kernel
  have hfails : parse "x >".toList = .error (.missingPath (.output .truncate)) := by decide +kernel
  refine ⟨hfront, ?_, ?_⟩
  · exact (parse_append_space hfront).2 _ hback
  · exact ((parse_append_space hfront).1 _).2 hfails

end LineShell.Redirection
