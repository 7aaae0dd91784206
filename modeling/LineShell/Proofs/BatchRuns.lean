import LineShell.Proofs.Encoding
import LineShell.Proofs.Runs

/-!
# Batches line by line

A batch cuts its bytes into lines and executes one after the other.  `Lines.Cut` says how bytes are
cut, by the way in which the first line ends.  `Shell.BatchRun` says what a batch does with its lines:
the first ones are texts and are executed, the exit is not requested before the last of these, and
something behind it ends the batch, which may be the end of the lines, the request, or a line that is
no text.  Both describe all and nothing else (`Lines.cut_iff`, `Shell.runLines_eq_iff`), so whatever
stands behind the end of a batch has no effect.

Bytes that end with a line feed are cut on their own.  Hence a batch in two parts is the one part
after the other, or the first part alone if that has come to its end early.
-/

namespace LineShell

/-! ## Cutting bytes into lines -/

namespace Lines

variable {bytes front back line rest : Bytes} {lines : List Bytes}

/-- The lines of a byte stream.  A line feed ends a line, and so does a carriage return with a line
feed behind it.  The bytes behind the last line feed, if there are any, are a line as they are. -/
inductive Cut : Bytes → List Bytes → Prop
  | nil : Cut [] []
  | unterminated {line : Bytes} (ne_nil : line ≠ []) (unbroken : lineFeed ∉ line) : Cut line [line]
  | feed {line rest : Bytes} {lines : List Bytes} (unbroken : lineFeed ∉ line)
      (noReturn : line.getLast? ≠ some carriageReturn) (behind : Cut rest lines) :
      Cut (line ++ lineFeed :: rest) (line :: lines)
  | returnFeed {line rest : Bytes} {lines : List Bytes} (unbroken : lineFeed ∉ line)
      (behind : Cut rest lines) : Cut (line ++ carriageReturn :: lineFeed :: rest) (line :: lines)

theorem split_of_not_mem (h : lineFeed ∉ line) : split line = unterminated line := by
  have hpieces : line.splitOn lineFeed = [line] :=
    List.splitOnP_eq_singleton fun b hb => beq_false_of_ne (ne_of_mem_of_not_mem hb h)
  unfold split
  rw [hpieces]
  rfl

theorem split_append_lineFeed (h : lineFeed ∉ line) (rest : Bytes) :
    split (line ++ lineFeed :: rest) = dropReturn line :: split rest := by
  have hpieces : (line ++ lineFeed :: rest).splitOn lineFeed = line :: rest.splitOn lineFeed :=
    List.splitOnP_append_cons_of_forall_mem
      (fun b hb => beq_false_of_ne (ne_of_mem_of_not_mem hb h)) lineFeed (beq_self_eq_true _) rest
  have hne : rest.splitOn lineFeed ≠ [] := List.splitOn_ne_nil lineFeed rest
  unfold split
  rw [hpieces]
  dsimp only
  rw [List.dropLast_cons_of_ne_nil hne, List.map_cons, List.cons_append, List.getLastD_cons,
    List.getLastD_eq_getLast?, List.getLastD_eq_getLast?, List.getLast?_eq_some_getLast hne]
  rfl

theorem dropReturn_concat (line : Bytes) : dropReturn (line ++ [carriageReturn]) = line := by
  unfold dropReturn
  rw [if_pos List.getLast?_concat, List.dropLast_concat]

theorem Cut.split_eq (h : Cut bytes lines) : split bytes = lines := by
  induction h with
  | nil => rfl
  | unterminated ne_nil unbroken =>
    rw [split_of_not_mem unbroken, Lines.unterminated, if_neg (by simpa using ne_nil)]
  | feed unbroken noReturn _ ih =>
    rw [split_append_lineFeed unbroken, ih, dropReturn, if_neg noReturn]
  | @returnFeed line rest lines unbroken _ ih =>
    have hunbroken : lineFeed ∉ line ++ [carriageReturn] := by
      simpa [unbroken] using (by decide : lineFeed ≠ carriageReturn)
    rw [List.append_cons line carriageReturn, split_append_lineFeed hunbroken, ih,
      dropReturn_concat]

theorem cut_split (bytes : Bytes) : Cut bytes (split bytes) := by
  induction hlength : bytes.length using Nat.strong_induction_on generalizing bytes with
  | _ length ih =>
    by_cases hfeed : lineFeed ∈ bytes
    · obtain ⟨line, rest, rfl, hunbroken⟩ := List.eq_append_cons_of_mem hfeed
      have hshorter : rest.length < length := by
        rw [← hlength, List.length_append, List.length_cons]
        omega
      have hbehind : Cut rest (split rest) := ih rest.length hshorter rest rfl
      rw [split_append_lineFeed hunbroken]
      by_cases hreturn : line.getLast? = some carriageReturn
      · obtain ⟨line, rfl⟩ := List.getLast?_eq_some_iff.1 hreturn
        rw [dropReturn_concat, ← List.append_cons]
        exact .returnFeed (fun h => hunbroken (List.mem_append_left _ h)) hbehind
      · rw [dropReturn, if_neg hreturn]
        exact .feed hunbroken hreturn hbehind
    · rw [split_of_not_mem hfeed]
      cases bytes with
      | nil => exact .nil
      | cons b bytes => exact .unterminated (List.cons_ne_nil b bytes) hfeed

theorem cut_iff : Cut bytes lines ↔ split bytes = lines :=
  ⟨Cut.split_eq, fun h => h ▸ cut_split bytes⟩

/-- No line of the bytes goes on behind them. -/
def Complete (bytes : Bytes) : Prop := bytes = [] ∨ bytes.getLast? = some lineFeed

instance (bytes : Bytes) : Decidable (Complete bytes) :=
  inferInstanceAs (Decidable (_ ∨ _))

theorem Complete.behind_lineFeed (h : Complete (line ++ lineFeed :: rest)) : Complete rest := by
  cases rest with
  | nil => exact .inl rfl
  | cons b rest =>
    refine .inr ?_
    rcases h with hnil | hlast
    · simp at hnil
    · simpa using hlast

theorem Cut.append (h : Cut front lines) (hcomplete : Complete front) {more : List Bytes}
    (hback : Cut back more) : Cut (front ++ back) (lines ++ more) := by
  induction h with
  | nil => exact hback
  | unterminated ne_nil unbroken =>
    exact absurd (List.mem_of_getLast? (hcomplete.resolve_left ne_nil)) unbroken
  | feed unbroken noReturn _ ih =>
    rw [List.append_assoc]
    exact .feed unbroken noReturn (ih hcomplete.behind_lineFeed)
  | returnFeed unbroken _ ih =>
    rw [List.append_cons] at hcomplete
    rw [List.append_assoc]
    exact .returnFeed unbroken (ih hcomplete.behind_lineFeed)

theorem split_append (h : Complete front) (back : Bytes) :
    split (front ++ back) = split front ++ split back :=
  ((cut_split front).append h (cut_split back)).split_eq

theorem split_ne_nil (h : bytes ≠ []) : split bytes ≠ [] := by
  have hcut := cut_split bytes
  intro hnil
  rw [hnil] at hcut
  cases hcut
  exact h rfl

end Lines

namespace Shell

variable {shell : Shell} {lines front back : List Bytes} {texts : List Text} {result : BatchResult}

/-! ## Executing the lines -/

/-- The shell after texts were executed in order, and recorded. -/
def afterTexts (shell : Shell) (texts : List Text) : Shell :=
  texts.foldl (fun shell text => (shell.executeLine text true).shell) shell

/-- What ends a batch behind its executed texts, by the lines that are left, and the result. -/
inductive BatchStop (texts : List Text) : List Bytes → BatchResult → Prop
  | exhausted {last : Shell} :
      BatchStop texts [] { outcome := .ok last.state.session.finalStatus, shell := last }
  | exit {last : Shell} {rest : List Bytes} (executed : texts ≠ [])
      (requested : last.state.session.exitRequested = true) :
      BatchStop texts rest { outcome := .ok last.state.session.finalStatus, shell := last }
  | unreadable {last : Shell} {line : Bytes} {rest : List Bytes}
      (goesOn : texts ≠ [] → last.state.session.exitRequested = false)
      (noText : ∀ text, Utf8.encode text ≠ line) :
      BatchStop texts (line :: rest) { outcome := .error .notUtf8, shell := last }

/-- A batch executes the texts, which are the first of its lines, leaves the rest of the lines, and
ends with the result. -/
structure BatchRun (shell : Shell) (lines : List Bytes) (texts : List Text) (rest : List Bytes)
    (result : BatchResult) : Prop where
  lines_eq : lines = texts.map Utf8.encode ++ rest
  shell_eq : result.shell = shell.afterTexts texts
  /-- The exit is not requested before the last text. -/
  goesOn : ∀ first behind, first ≠ [] → behind ≠ [] → first ++ behind = texts →
    (shell.afterTexts first).state.session.exitRequested = false
  stops : BatchStop texts rest result

theorem runLines_cons_of_decode {line : Bytes} {text : Text} (h : Utf8.decode? line = some text) :
    shell.runLines (line :: lines) =
      if (shell.executeLine text true).shell.state.session.exitRequested = true then
        { outcome := .ok (shell.executeLine text true).shell.state.session.finalStatus
          shell := (shell.executeLine text true).shell }
      else (shell.executeLine text true).shell.runLines lines := by
  rw [runLines, h]

theorem batchSteps_cons_of_decode {line : Bytes} {text : Text}
    (h : Utf8.decode? line = some text) :
    shell.batchSteps (line :: lines) =
      ⟨shell, text, true⟩ ::
        if (shell.executeLine text true).shell.state.session.exitRequested = true then []
        else (shell.executeLine text true).shell.batchSteps lines := by
  rw [batchSteps, h]
  rfl

theorem runLines_cons_of_noText {line : Bytes} (h : ∀ text, Utf8.encode text ≠ line) :
    shell.runLines (line :: lines) = { outcome := .error .notUtf8, shell } := by
  rw [runLines, Utf8.decode?_eq_none_iff.2 h]

variable {rest : List Bytes}

/-- A batch goes on behind its first text unless that requests the exit. -/
theorem BatchRun.cons {text : Text}
    (hgoesOn : (shell.executeLine text true).shell.state.session.exitRequested = false)
    (h : BatchRun (shell.executeLine text true).shell lines texts rest result) :
    BatchRun shell (Utf8.encode text :: lines) (text :: texts) rest result where
  lines_eq := congrArg (Utf8.encode text :: ·) h.lines_eq
  shell_eq := h.shell_eq
  goesOn first behind hfirst hbehind hsame := by
    obtain ⟨_, first, rfl⟩ := List.exists_cons_of_ne_nil hfirst
    obtain ⟨rfl, htexts⟩ := List.cons.inj hsame
    by_cases hnil : first = []
    · subst hnil
      exact hgoesOn
    · exact h.goesOn first behind hnil hbehind htexts
  stops := by
    obtain ⟨-, hlast, -, hstops⟩ := h
    cases hstops with
    | exhausted => exact .exhausted
    | exit _ requested => exact .exit (List.cons_ne_nil _ _) requested
    | @unreadable last _ _ goesOn noText =>
      refine .unreadable (fun _ => ?_) noText
      by_cases hnil : texts = []
      · subst hnil
        obtain rfl : last = (shell.executeLine text true).shell := hlast
        exact hgoesOn
      · exact goesOn hnil

/-- A batch ends with its first text if that requests the exit. -/
theorem batchRun_of_exitRequested {text : Text} (lines : List Bytes)
    (hexit : (shell.executeLine text true).shell.state.session.exitRequested = true) :
    BatchRun shell (Utf8.encode text :: lines) [text] lines
      (shell.runLines (Utf8.encode text :: lines)) := by
  have hran : shell.runLines (Utf8.encode text :: lines) =
      { outcome := .ok (shell.executeLine text true).shell.state.session.finalStatus
        shell := (shell.executeLine text true).shell } := by
    rw [runLines_cons_of_decode (Utf8.decode?_eq_some_iff.2 rfl)]
    exact if_pos hexit
  rw [hran]
  refine ⟨rfl, rfl, ?_, .exit (List.cons_ne_nil _ _) hexit⟩
  intro first behind hfirst hbehind happend
  rcases List.append_eq_singleton_iff.1 happend with ⟨hnil, -⟩ | ⟨-, hnil⟩
  · exact absurd hnil hfirst
  · exact absurd hnil hbehind

/-- Every batch has such a course. -/
theorem exists_batchRun (shell : Shell) (lines : List Bytes) :
    ∃ texts rest, BatchRun shell lines texts rest (shell.runLines lines) := by
  have hnone (first behind : List Text) (hfirst : first ≠ []) (happend : first ++ behind = []) :
      False := hfirst (List.append_eq_nil_iff.1 happend).1
  induction lines generalizing shell with
  | nil => exact ⟨[], [], rfl, rfl, fun first behind h _ e => (hnone first behind h e).elim, .exhausted⟩
  | cons line lines ih =>
    by_cases htext : ∃ text, Utf8.encode text = line
    · obtain ⟨text, rfl⟩ := htext
      cases hexit : (shell.executeLine text true).shell.state.session.exitRequested with
      | false =>
        obtain ⟨texts, rest, hrun⟩ := ih (shell.executeLine text true).shell
        refine ⟨text :: texts, rest, ?_⟩
        rw [runLines_cons_of_decode (Utf8.decode?_eq_some_iff.2 rfl), if_neg (by simp [hexit])]
        exact hrun.cons hexit
      | true => exact ⟨[text], lines, batchRun_of_exitRequested lines hexit⟩
    · have hnoText : ∀ text, Utf8.encode text ≠ line := fun text h => htext ⟨text, h⟩
      rw [runLines_cons_of_noText hnoText]
      exact ⟨[], line :: lines, rfl, rfl, fun first behind h _ e => (hnone first behind h e).elim,
        .unreadable (fun h => absurd rfl h) hnoText⟩

/-- Behind a text that does not request the exit the batch goes on. -/
theorem BatchRun.tail {text : Text}
    (h : BatchRun shell (Utf8.encode text :: lines) (text :: texts) rest result)
    (hgoesOn : (shell.executeLine text true).shell.state.session.exitRequested = false) :
    BatchRun (shell.executeLine text true).shell lines texts rest result where
  lines_eq := (List.cons.inj h.lines_eq).2
  shell_eq := h.shell_eq
  goesOn first behind hfirst hbehind happend :=
    h.goesOn (text :: first) behind (List.cons_ne_nil _ _) hbehind (congrArg (text :: ·) happend)
  stops := by
    obtain ⟨-, hshell, -, hstops⟩ := h
    cases hstops with
    | exhausted => exact .exhausted
    | @exit last _ _ requested =>
      refine .exit ?_ requested
      rintro rfl
      obtain rfl : last = (shell.executeLine text true).shell := hshell
      cases hgoesOn.symm.trans requested
    | unreadable goesOn noText => exact .unreadable (fun _ => goesOn (List.cons_ne_nil _ _)) noText

/-- A text that requests the exit is the last one of its batch. -/
theorem BatchRun.of_exitRequested {text : Text} {more : List Text}
    (h : BatchRun shell lines (texts ++ text :: more) rest result)
    (hexit : (shell.afterTexts (texts ++ [text])).state.session.exitRequested = true) :
    more = [] ∧ result.outcome = .ok (shell.afterTexts (texts ++ [text])).state.session.finalStatus := by
  have hne : texts ++ [text] ≠ [] := List.append_ne_nil_of_right_ne_nil _ (List.cons_ne_nil _ _)
  obtain rfl : more = [] := by
    by_contra hmore
    have hgoesOn := h.goesOn (texts ++ [text]) more hne hmore (by simp)
    cases hexit.symm.trans hgoesOn
  refine ⟨rfl, ?_⟩
  obtain ⟨-, hshell, -, hstops⟩ := h
  rw [← hshell] at hexit ⊢
  cases hstops with
  | exhausted | exit => rfl
  | unreadable goesOn => cases hexit.symm.trans (goesOn hne)

/-- A batch ends with its first text if that requests the exit. -/
theorem BatchRun.eq_of_exitRequested {text : Text}
    (h : BatchRun shell lines (text :: texts) rest result)
    (hexit : (shell.executeLine text true).shell.state.session.exitRequested = true) :
    texts = [] ∧ result =
      { outcome := .ok (shell.executeLine text true).shell.state.session.finalStatus
        shell := (shell.executeLine text true).shell } := by
  have hfirst : BatchRun shell lines ([] ++ text :: texts) rest result := h
  obtain ⟨rfl, houtcome⟩ := hfirst.of_exitRequested hexit
  obtain ⟨outcome, last⟩ := result
  obtain rfl : last = (shell.executeLine text true).shell := h.shell_eq
  exact ⟨rfl, congrArg (BatchResult.mk · _) houtcome⟩

/-- The course of a batch fixes its result. -/
theorem BatchRun.runLines_eq (h : BatchRun shell lines texts rest result) :
    shell.runLines lines = result := by
  induction texts generalizing shell lines with
  | nil =>
    obtain ⟨rfl, hshell, -, hstops⟩ := h
    cases hstops with
    | exhausted =>
      subst hshell
      rfl
    | exit executed _ => exact absurd rfl executed
    | unreadable _ noText =>
      subst hshell
      exact runLines_cons_of_noText noText
  | cons text texts ih =>
    obtain rfl : lines = Utf8.encode text :: (texts.map Utf8.encode ++ rest) := h.lines_eq
    rw [runLines_cons_of_decode (Utf8.decode?_eq_some_iff.2 rfl)]
    split
    · next hexit => exact (h.eq_of_exitRequested hexit).2.symm
    · next hexit => exact ih (h.tail (Bool.eq_false_iff.2 hexit))

theorem runLines_eq_iff :
    shell.runLines lines = result ↔ ∃ texts rest, BatchRun shell lines texts rest result :=
  ⟨fun h => h ▸ exists_batchRun shell lines, fun ⟨_, _, h⟩ => h.runLines_eq⟩

/-- A batch that does not fail returns the final status of its session. -/
theorem outcome_runLines {status : Status} (h : (shell.runLines lines).outcome = .ok status) :
    status = (shell.runLines lines).shell.state.session.finalStatus := by
  obtain ⟨texts, rest, hrun⟩ := exists_batchRun shell lines
  have hstops := hrun.stops
  generalize shell.runLines lines = result at h hstops
  cases hstops with
  | exhausted | exit => exact (Except.ok.inj h).symm
  | unreadable => cases h

theorem Settled.afterTexts (h : Settled shell) (texts : List Text) :
    Settled (shell.afterTexts texts) := by
  induction texts generalizing shell with
  | nil => exact h
  | cons text texts ih => exact ih (h.executeLine text true)

/-! ## Batches in two parts -/

/-- Lines go on where other lines have ended without a failure or a request. -/
theorem runLines_append_of_ok {status : Status} (hok : (shell.runLines front).outcome = .ok status)
    (hgoesOn : (shell.runLines front).shell.state.session.exitRequested = false) :
    shell.runLines (front ++ back) = (shell.runLines front).shell.runLines back := by
  induction front generalizing shell with
  | nil => rfl
  | cons line front ih =>
    rw [runLines] at hok hgoesOn
    rw [List.cons_append, runLines, runLines]
    cases htext : Utf8.decode? line with
    | none =>
      rw [htext] at hok
      cases hok
    | some text =>
      rw [htext] at hok hgoesOn
      dsimp only at hok hgoesOn ⊢
      split at hgoesOn
      · next hexit => cases hexit.symm.trans hgoesOn
      · next hexit =>
        rw [if_neg hexit] at hok
        rw [if_neg hexit, if_neg hexit]
        exact ih hok hgoesOn

/-- Lines that have failed or requested the exit are not followed by others. -/
theorem runLines_append_of_stopped (hne : front ≠ [])
    (hstopped : (∃ cause, (shell.runLines front).outcome = .error cause) ∨
      (shell.runLines front).shell.state.session.exitRequested = true) :
    shell.runLines (front ++ back) = shell.runLines front := by
  induction front generalizing shell with
  | nil => exact absurd rfl hne
  | cons line front ih =>
    rw [runLines] at hstopped
    rw [List.cons_append, runLines, runLines]
    cases htext : Utf8.decode? line with
    | none => rfl
    | some text =>
      rw [htext] at hstopped
      dsimp only at hstopped ⊢
      split
      · rfl
      · next hexit =>
        rw [if_neg hexit] at hstopped
        refine ih ?_ hstopped
        rintro rfl
        rcases hstopped with ⟨cause, hfailed⟩ | hrequested
        · cases hfailed
        · exact hexit hrequested

/-- A batch executes its lines in order and recorded, up to the one that requests the exit or to the
first one that is no text, and this is all that its result depends on.  A batch in two parts, the first
of which ends with a line feed, is the two parts one after the other if the first one neither fails nor
requests the exit, and otherwise the first part. -/
theorem batch_folds_lines (shell : Shell) :
    (∀ bytes, (∃ lines, Lines.Cut bytes lines) ∧
      ∀ lines, Lines.Cut bytes lines → ∀ result,
        shell.runBatch bytes = result ↔ ∃ texts rest, BatchRun shell lines texts rest result) ∧
    ∀ front back : Bytes, Lines.Complete front →
      let ran := shell.runBatch front
      ((∃ status, ran.outcome = .ok status) → ran.shell.state.session.exitRequested = false →
        shell.runBatch (front ++ back) = ran.shell.runBatch back) ∧
      (front ≠ [] →
        (∃ cause, ran.outcome = .error cause) ∨ ran.shell.state.session.exitRequested = true →
          shell.runBatch (front ++ back) = ran) := by
  refine ⟨fun bytes => ⟨⟨_, Lines.cut_split bytes⟩, ?_⟩, ?_⟩
  · rintro lines hcut result
    rw [runBatch, hcut.split_eq]
    exact runLines_eq_iff
  · intro front back hcomplete ran
    have happend : shell.runBatch (front ++ back) =
        shell.runLines (Lines.split front ++ Lines.split back) := by
      rw [runBatch, Lines.split_append hcomplete]
    rw [happend]
    constructor
    · rintro ⟨status, hok⟩ hgoesOn
      exact runLines_append_of_ok hok hgoesOn
    · intro hne hstopped
      exact runLines_append_of_stopped (Lines.split_ne_nil hne) hstopped

/-- A batch that requests the exit in its second line ends there, whatever follows, also bytes that
are no text.  Without that line it goes on with the second part. -/
theorem batch_folds_lines_exit_in_middle :
    let first : Bytes := Utf8.encode "local a=1\r\n".toList
    let exit : Bytes := Utf8.encode "exit 3\nlocal a=2\n".toList
    let later : Bytes := [255, 10]
    Lines.Cut (first ++ exit) [Utf8.encode "local a=1".toList, Utf8.encode "exit 3".toList,
        Utf8.encode "local a=2".toList] ∧
      (∃ texts rest, BatchRun bare [Utf8.encode "local a=1".toList, Utf8.encode "exit 3".toList,
        Utf8.encode "local a=2".toList] texts rest (bare.runBatch (first ++ exit))) ∧
      bare.runBatch (first ++ exit ++ later) = bare.runBatch (first ++ exit) ∧
      bare.runBatch (first ++ exit) = (bare.runBatch first).shell.runBatch exit := by
  intro first exit later
  obtain ⟨hlines, hparts⟩ := batch_folds_lines bare
  have hcut : Lines.Cut (first ++ exit) [Utf8.encode "local a=1".toList,
      Utf8.encode "exit 3".toList, Utf8.encode "local a=2".toList] :=
    Lines.cut_iff.2 (by decide +kernel)
  have hrequested :
      (bare.runBatch (first ++ exit)).shell.state.session.exitRequested = true := by
    decide +kernel
  have hok : (bare.runBatch first).outcome = .ok 0 := by decide +kernel
  refine ⟨hcut, ((hlines (first ++ exit)).2 _ hcut _).1 rfl, ?_, ?_⟩
  · exact (hparts (first ++ exit) later (by decide +kernel)).2 (by decide +kernel) (.inr hrequested)
  · exact (hparts first exit (by decide +kernel)).1 ⟨0, hok⟩ (by decide +kernel)

end Shell
end LineShell
