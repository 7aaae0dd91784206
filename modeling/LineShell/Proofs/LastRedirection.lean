import LineShell.Proofs.Decomposition

/-!
# The last redirection of a stream

`Targets.set` takes redirections one by one and moves a combined target between three slots.  What
comes out depends on the last redirection of each stream only: of standard input the last `<`, of
standard output the last of `>`, `>>`, `&>` and `&>>`, and of standard error the last of `2>`, `&>`
and `&>>` (`foldl_set_eq_lastTargets`).

A redirection is told apart from an equal one by its position in the line.  So the two outputs share
an open file if and only if one redirection of both is the last one of each.
-/

namespace LineShell.Redirection

/-! ## Streams of an operator -/

namespace Operator

def redirectsInput : Operator → Bool
  | input => true
  | output _ | error | combined _ => false

def redirectsOutput : Operator → Bool
  | output _ | combined _ => true
  | input | error => false

def redirectsError : Operator → Bool
  | error | combined _ => true
  | input | output _ => false

/-- How the file of an output is opened.  Standard error of its own is never appended to; the file
of an input is only read. -/
def mode : Operator → Mode
  | output mode | combined mode => mode
  | input | error => .truncate

end Operator

def Occurrence.target (o : Occurrence Char) : Target := ⟨o.path, o.operator.mode⟩

/-! ## The last one -/

variable {p : Operator → Bool} {occurrences : List (Occurrence Char)} {o : Occurrence Char}

/-- The last redirection whose operator has the property, with its position. -/
def lastOf (p : Operator → Bool) (occurrences : List (Occurrence Char)) :
    Option (Occurrence Char × Nat) :=
  (occurrences.zipIdx.filter fun entry => p entry.1.operator).getLast?

theorem lastOf_concat :
    lastOf p (occurrences ++ [o]) =
      if p o.operator = true then some (o, occurrences.length) else lastOf p occurrences := by
  unfold lastOf
  rw [List.zipIdx_append, List.filter_append]
  by_cases hp : p o.operator = true
  · simp [hp]
  · simp [hp]

theorem property_of_lastOf {position : Nat} (h : lastOf p occurrences = some (o, position)) :
    p o.operator = true :=
  (List.mem_filter.1 (List.mem_of_getLast? h)).2

/-- A redirection of the line is not the one that is written next. -/
theorem lastOf_ne_next (p : Operator → Bool) (occurrences : List (Occurrence Char))
    (o : Occurrence Char) : lastOf p occurrences ≠ some (o, occurrences.length) := by
  intro hlast
  have hmem := List.mem_of_mem_filter (List.mem_of_getLast? hlast)
  have hposition := List.snd_lt_of_mem_zipIdx hmem
  simp at hposition

/-! ## Targets of the last ones -/

/-- The targets that the last redirections of the streams ask for. -/
def lastTargets (occurrences : List (Occurrence Char)) : Targets :=
  let lastIn := lastOf Operator.redirectsInput occurrences
  let lastOut := lastOf Operator.redirectsOutput occurrences
  let lastErr := lastOf Operator.redirectsError occurrences
  if lastOut = lastErr then
    { stdin := lastIn.map (·.1.path)
      combined := lastOut.map (·.1.target) }
  else
    { stdin := lastIn.map (·.1.path)
      stdout := lastOut.map (·.1.target)
      stderr := lastErr.map (·.1.target) }

theorem stdin_lastTargets (occurrences : List (Occurrence Char)) :
    (lastTargets occurrences).stdin =
      (lastOf Operator.redirectsInput occurrences).map (·.1.path) := by
  unfold lastTargets
  dsimp only
  split <;> rfl

/-- The target of standard output, combined or not. -/
theorem combined_or_stdout_lastTargets (occurrences : List (Occurrence Char)) :
    (lastTargets occurrences).combined.or (lastTargets occurrences).stdout =
      (lastOf Operator.redirectsOutput occurrences).map (·.1.target) := by
  unfold lastTargets
  dsimp only
  split
  · exact Option.or_none
  · exact Option.none_or

/-- The target of standard error, combined or not. -/
theorem combined_or_stderr_lastTargets (occurrences : List (Occurrence Char)) :
    (lastTargets occurrences).combined.or (lastTargets occurrences).stderr =
      (lastOf Operator.redirectsError occurrences).map (·.1.target) := by
  unfold lastTargets
  dsimp only
  split
  · next hsame =>
    rw [hsame]
    exact Option.or_none
  · exact Option.none_or

/-- One more redirection is the last one of its streams. -/
theorem lastTargets_concat (occurrences : List (Occurrence Char)) (o : Occurrence Char) :
    lastTargets (occurrences ++ [o]) = (lastTargets occurrences).set o.operator o.path := by
  have hin := stdin_lastTargets occurrences
  have hout := combined_or_stdout_lastTargets occurrences
  have herr := combined_or_stderr_lastTargets occurrences
  cases hoperator : o.operator with
  | input =>
    unfold lastTargets Targets.set
    by_cases hsame : lastOf Operator.redirectsOutput occurrences =
        lastOf Operator.redirectsError occurrences
    · simp [lastOf_concat, hoperator, hsame, Operator.redirectsInput, Operator.redirectsOutput,
        Operator.redirectsError]
    · simp [lastOf_concat, hoperator, hsame, Operator.redirectsInput, Operator.redirectsOutput,
        Operator.redirectsError]
  | output mode =>
    have hdiffer := lastOf_ne_next Operator.redirectsError occurrences o
    rw [Targets.set, herr, hin]
    unfold lastTargets
    simp [lastOf_concat, hoperator, Operator.redirectsInput, Operator.redirectsOutput,
      Operator.redirectsError, hdiffer.symm, Occurrence.target, Operator.mode]
  | error =>
    have hdiffer := lastOf_ne_next Operator.redirectsOutput occurrences o
    rw [Targets.set, hout, hin]
    unfold lastTargets
    simp [lastOf_concat, hoperator, Operator.redirectsInput, Operator.redirectsOutput,
      Operator.redirectsError, hdiffer, Occurrence.target, Operator.mode]
  | combined mode =>
    rw [Targets.set, hin]
    unfold lastTargets
    simp [lastOf_concat, hoperator, Operator.redirectsInput, Operator.redirectsOutput,
      Operator.redirectsError, Occurrence.target, Operator.mode]

/-- Redirections applied in order leave the targets of the last ones. -/
theorem foldl_set_eq_lastTargets (occurrences : List (Occurrence Char)) :
    occurrences.foldl (fun targets o => targets.set o.operator o.path) .empty =
      lastTargets occurrences := by
  induction occurrences using List.reverseRecOn with
  | nil => rfl
  | append_singleton occurrences o ih =>
    rw [List.foldl_append, ih, lastTargets_concat]
    rfl

/-! ## The last one wins -/

variable {last : Occurrence Char × Nat}

/-- Only a combined operator is the last one of both outputs. -/
theorem combined_of_lastOf (hout : lastOf Operator.redirectsOutput occurrences = some last)
    (herr : lastOf Operator.redirectsError occurrences = some last) :
    ∃ mode, last.1.operator = .combined mode := by
  have houtput := property_of_lastOf hout
  have herror := property_of_lastOf herr
  cases hcase : last.1.operator with
  | combined mode => exact ⟨mode, rfl⟩
  | input => simp [hcase, Operator.redirectsOutput] at houtput
  | output mode => simp [hcase, Operator.redirectsError] at herror
  | error => simp [hcase, Operator.redirectsOutput] at houtput

theorem lastTargets_of_shared (hout : lastOf Operator.redirectsOutput occurrences = some last)
    (herr : lastOf Operator.redirectsError occurrences = some last) :
    lastTargets occurrences =
      { stdin := (lastOf Operator.redirectsInput occurrences).map (·.1.path)
        combined := some last.1.target } := by
  unfold lastTargets
  dsimp only
  rw [if_pos (hout.trans herr.symm), hout]
  rfl

theorem lastTargets_of_distinct
    (h : ¬ ∃ last, lastOf Operator.redirectsOutput occurrences = some last ∧
      lastOf Operator.redirectsError occurrences = some last) :
    lastTargets occurrences =
      { stdin := (lastOf Operator.redirectsInput occurrences).map (·.1.path)
        stdout := (lastOf Operator.redirectsOutput occurrences).map (·.1.target)
        stderr := (lastOf Operator.redirectsError occurrences).map (·.1.target) } := by
  unfold lastTargets
  dsimp only
  split
  · next hsame =>
    -- Equal without being one redirection: neither output is redirected.
    have hnone : lastOf Operator.redirectsOutput occurrences = none := by
      cases hout : lastOf Operator.redirectsOutput occurrences with
      | none => rfl
      | some last => exact absurd ⟨last, hout, hsame ▸ hout⟩ h
    rw [← hsame, hnone]
    rfl
  · rfl

/-- The last redirection of each stream wins.  If one `&>` or `&>>` is the last one of both outputs,
they share its file.  Otherwise each output has the file of its own last redirection, opened in the
mode of that one, and none is shared. -/
theorem parse_last_redirection_wins {line : Text} {parsed : Parsed} {cut : Scan Char}
    (hparse : parse line = .ok parsed) (hcut : Decomposes id [] line cut) :
    let lastIn := lastOf Operator.redirectsInput cut.occurrences
    let lastOut := lastOf Operator.redirectsOutput cut.occurrences
    let lastErr := lastOf Operator.redirectsError cut.occurrences
    parsed.targets.stdin = lastIn.map (·.1.path) ∧
      (∀ last, lastOut = some last → lastErr = some last →
        (∃ mode, last.1.operator = .combined mode ∧
          parsed.targets.combined = some ⟨last.1.path, mode⟩) ∧
          parsed.targets.stdout = none ∧ parsed.targets.stderr = none) ∧
      ((¬ ∃ last, lastOut = some last ∧ lastErr = some last) →
        parsed.targets.combined = none ∧
          parsed.targets.stdout = lastOut.map (·.1.target) ∧
          parsed.targets.stderr = lastErr.map (·.1.target)) ∧
      (parsed.targets.combined ≠ none →
        parsed.targets.stdout = none ∧ parsed.targets.stderr = none) := by
  intro lastIn lastOut lastErr
  have htargets : parsed.targets = lastTargets cut.occurrences := by
    rw [(parse_eq_ok_iff.1 hparse).2, decomposes_iff.1 hcut]
    exact foldl_set_eq_lastTargets _
  rw [htargets]
  refine ⟨stdin_lastTargets _, ?_, ?_, ?_⟩
  · intro last hout herr
    obtain ⟨mode, hmode⟩ := combined_of_lastOf hout herr
    rw [lastTargets_of_shared hout herr]
    refine ⟨⟨mode, hmode, ?_⟩, rfl, rfl⟩
    simp [Occurrence.target, hmode, Operator.mode]
  · intro hdistinct
    rw [lastTargets_of_distinct hdistinct]
    exact ⟨rfl, rfl, rfl⟩
  · intro hcombined
    by_cases hshared : ∃ last, lastOut = some last ∧ lastErr = some last
    · obtain ⟨last, hout, herr⟩ := hshared
      rw [lastTargets_of_shared hout herr]
      exact ⟨rfl, rfl⟩
    · rw [lastTargets_of_distinct hshared] at hcombined
      exact absurd rfl hcombined

/-- The output of `make` goes to the last file and its errors to the second, which the first `&>`
opened for both. -/
theorem parse_last_redirection_wins_combined_split :
    let line : Text := "make 2> a &> b >> c".toList
    let parsed : Parsed :=
      { residual := "make   ".toList
        targets :=
          { stdout := some ⟨"c".toList, .append⟩
            stderr := some ⟨"b".toList, .truncate⟩ } }
    let cut := scan id true line
    parse line = .ok parsed ∧ Decomposes id [] line cut ∧
      parsed.targets.stdout =
        (lastOf Operator.redirectsOutput cut.occurrences).map (·.1.target) ∧
      parsed.targets.stderr =
        (lastOf Operator.redirectsError cut.occurrences).map (·.1.target) := by
  intro line parsed cut
  have hparse : parse line = .ok parsed := by decide +kernel
  have hcut : Decomposes id [] line cut := decomposes_iff.2 rfl
  obtain ⟨-, -, hsplit, -⟩ := parse_last_redirection_wins hparse hcut
  have hdistinct : lastOf Operator.redirectsOutput cut.occurrences ≠
      lastOf Operator.redirectsError cut.occurrences := by
    decide +kernel
  obtain ⟨-, hout, herr⟩ := hsplit fun ⟨last, hout, herr⟩ => hdistinct (hout.trans herr.symm)
  exact ⟨hparse, hcut, hout, herr⟩

end LineShell.Redirection
