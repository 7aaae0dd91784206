import LineShell.Proofs.ByteBoundaries

/-!
# Scanning the bytes of a line is safe

A scan over bytes cuts a line at positions: the plain text between `copiedUpTo` and `pos`, the path
between `start` and `cursor`.  This goes well for every line that is the encoding of a text
(`run_safe_on_encoded_line`).

What carries this over a whole run is `Sound`: what has been taken out ends between characters and not
behind the current position.  The current position itself may lie inside of a character, since it moves
byte by byte.  But where an operator is found it does not, because an operator is made of bytes that are
characters of their own, as are the blanks behind it and whatever ends a path (`Sound.inOrder`).  From
this follows what a step can do (`Sound.step_cases`), and from that what a run comes to
(`run_eq_completed`).
-/

namespace LineShell.Redirection

open LineShell.Utf8

namespace ByteScan

variable {text : Text} {bytes : Bytes} {state next : State} {operator : Operator}

/-! ## Positions that the loops find -/

/-- A loop over bytes passes over the longest run of them. -/
theorem advance_eq (p : Char → Bool) (bytes : Bytes) (cursor : Nat) :
    advance p bytes cursor = cursor + ((bytes.drop cursor).takeWhile (p ∘ byteView)).length := by
  fun_induction advance p bytes cursor with
  | case1 cursor hcursor hp ih =>
    have hfirst : (p ∘ byteView) bytes[cursor] = true := hp
    rw [ih, List.drop_eq_getElem_cons hcursor, List.takeWhile_cons_of_pos hfirst, List.length_cons]
    omega
  | case2 cursor hcursor hp =>
    have hfirst : ¬ (p ∘ byteView) bytes[cursor] = true := hp
    rw [List.drop_eq_getElem_cons hcursor, List.takeWhile_cons_of_neg hfirst]
    rfl
  | case3 cursor hcursor =>
    rw [List.drop_eq_nil_of_le (Nat.not_lt.1 hcursor)]
    rfl

theorem drop_advance (p : Char → Bool) (bytes : Bytes) (cursor : Nat) :
    bytes.drop (advance p bytes cursor) = (bytes.drop cursor).dropWhile (p ∘ byteView) := by
  rw [advance_eq, ← List.drop_drop]
  nth_rewrite 2 [← List.takeWhile_append_dropWhile (p := p ∘ byteView) (l := bytes.drop cursor)]
  rw [List.drop_left]

theorem drop_pathStart (bytes : Bytes) (pos : Nat) (operator : Operator) :
    bytes.drop (pathStart bytes pos operator) =
      ((bytes.drop pos).drop operator.symbol.length).dropWhile (Text.isAsciiBlank ∘ byteView) := by
  rw [pathStart, drop_advance, List.drop_drop]

theorem drop_pathEnd (bytes : Bytes) (start : Nat) :
    bytes.drop (pathEnd bytes start) = (bytes.drop start).dropWhile (inPath ∘ byteView) :=
  drop_advance inPath bytes start

theorem take_drop_pathEnd (bytes : Bytes) (start : Nat) :
    (bytes.take (pathEnd bytes start)).drop start =
      (bytes.drop start).takeWhile (inPath ∘ byteView) := by
  rw [List.drop_take, pathEnd, advance_eq, Nat.add_sub_cancel_left]
  exact (List.prefix_iff_eq_take.1 (List.takeWhile_prefix _)).symm

theorem pathEnd_le_length {start : Nat} (h : start ≤ bytes.length) :
    pathEnd bytes start ≤ bytes.length := by
  have hpath := (List.takeWhile_prefix (inPath ∘ byteView) (l := bytes.drop start)).length_le
  rw [List.length_drop] at hpath
  rw [pathEnd, advance_eq]
  omega

/-! ## Operators at a position -/

theorem atWordStart_eq {pos : Nat} (h : pos ≤ bytes.length) :
    atWordStart bytes pos = Operator.wordStart byteView (bytes.take pos) := by
  cases pos with
  | zero => rfl
  | succ pos =>
    rw [List.take_succ_eq_append_getElem h, Operator.wordStart_concat, atWordStart,
      List.getElem?_eq_getElem h]
    rfl

theorem operatorAt?_succ {pos : Nat} (h : pos < bytes.length) :
    operatorAt? bytes (pos + 1) =
      Operator.recognize byteView (Text.isAsciiBlank (byteView bytes[pos]))
        (bytes.drop (pos + 1)) := by
  rw [operatorAt?, atWordStart, List.getElem?_eq_getElem h]
  rfl

/-- Behind a path no word starts. -/
theorem operatorAt?_pathEnd {start : Nat} (h : start ≤ bytes.length) :
    operatorAt? bytes (pathEnd bytes start) =
      Operator.recognize byteView false (bytes.drop (pathEnd bytes start)) := by
  have htake : bytes.take (pathEnd bytes start) =
      bytes.take start ++ (bytes.drop start).takeWhile (inPath ∘ byteView) := by
    rw [← take_drop_pathEnd, ← Nat.min_eq_left (le_pathEnd bytes start), ← List.take_take,
      Nat.min_eq_left (le_pathEnd bytes start), List.take_append_drop]
  rw [operatorAt?, atWordStart_eq (pathEnd_le_length h), htake, drop_pathEnd]
  exact (Operator.recognize_behind_path (.of_span _ _)).symm

/-- An operator and the blanks behind it are made of the first 128 bytes. -/
theorem exists_drop_eq_append {pos : Nat} (h : operatorAt? bytes pos = some operator) :
    ∃ written rest, bytes.drop pos = written ++ rest ∧ written ≠ [] ∧
      pathStart bytes pos operator = pos + written.length ∧ ∀ b ∈ written, b.toNat < 128 := by
  have hsymbol := Operator.map_take_of_recognize h
  have hlength : ((bytes.drop pos).take operator.symbol.length).length = operator.symbol.length := by
    rw [← List.length_map byteView, hsymbol]
  refine ⟨(bytes.drop pos).take operator.symbol.length ++
    ((bytes.drop pos).drop operator.symbol.length).takeWhile (Text.isAsciiBlank ∘ byteView),
    ((bytes.drop pos).drop operator.symbol.length).dropWhile (Text.isAsciiBlank ∘ byteView),
    ?_, ?_, ?_, ?_⟩
  · rw [List.append_assoc, List.takeWhile_append_dropWhile, List.take_append_drop]
  · have hpos := operator.symbol_length_pos
    refine List.append_ne_nil_of_left_ne_nil (List.ne_nil_of_length_pos ?_) _
    omega
  · rw [pathStart, advance_eq, List.length_append, hlength, List.drop_drop, Nat.add_assoc]
  · intro b hb
    rcases List.mem_append.1 hb with hb | hb
    · rw [← toNat_byteView]
      exact operator.toNat_lt_of_mem_symbol _ (hsymbol ▸ List.mem_map_of_mem hb)
    · have hblank : (Text.isAsciiBlank ∘ byteView) b = true := List.mem_takeWhile_imp hb
      exact toNat_lt_of_isAsciiBlank hblank

theorem between_pathStart {pos : Nat} (h : operatorAt? (encode text) pos = some operator) :
    Between text pos ∧ Between text (pathStart (encode text) pos operator) := by
  obtain ⟨written, rest, hsplit, hne, hstart, hlow⟩ := exists_drop_eq_append h
  rw [hstart]
  exact between_of_isPrefix_drop hne ⟨rest, hsplit.symm⟩ hlow

/-- A path ends at a blank, at an angle bracket or at the end of the line. -/
theorem between_pathEnd {start : Nat} (h : start ≤ (encode text).length) :
    Between text (pathEnd (encode text) start) := by
  have hdrop := drop_pathEnd (encode text) start
  have hends := (IsRun.of_span (inPath ∘ byteView) ((encode text).drop start)).maximal
  cases hrest : ((encode text).drop start).dropWhile (inPath ∘ byteView) with
  | nil =>
    rw [hrest, List.drop_eq_nil_iff] at hdrop
    rw [Nat.le_antisymm (pathEnd_le_length h) hdrop]
    exact .length text
  | cons b rest =>
    rw [hrest] at hdrop hends
    exact (between_of_drop_eq_cons hdrop (toNat_lt_of_not_inPath (hends b rfl))).1

/-! ## One step -/

/-- What holds whenever an operator is looked for. -/
structure Sound (text : Text) (state : State) : Prop where
  copied_le : state.copiedUpTo ≤ state.pos
  pos_le : state.pos ≤ (encode text).length
  copied_between : Between text state.copiedUpTo

/-- Plain text is taken out between the first two positions and a path between the last two. -/
structure InOrder (text : Text) (copiedUpTo pos start cursor : Nat) : Prop where
  copied_le : copiedUpTo ≤ pos
  pos_lt : pos < start
  start_le : start ≤ cursor
  cursor_le : cursor ≤ (encode text).length
  copied_between : Between text copiedUpTo
  pos_between : Between text pos
  start_between : Between text start
  cursor_between : Between text cursor

namespace Sound

theorem initial (text : Text) : Sound text {} where
  copied_le := Nat.le_refl 0
  pos_le := Nat.zero_le _
  copied_between := .zero text

theorem inOrder (h : Sound text state)
    (hfound : operatorAt? (encode text) state.pos = some operator) :
    InOrder text state.copiedUpTo state.pos (pathStart (encode text) state.pos operator)
      (pathEnd (encode text) (pathStart (encode text) state.pos operator)) := by
  obtain ⟨hpos, hstart⟩ := between_pathStart hfound
  exact
    { copied_le := h.copied_le
      pos_lt := lt_pathStart _ _ _
      start_le := le_pathEnd _ _
      cursor_le := pathEnd_le_length hstart.le_length
      copied_between := h.copied_between
      pos_between := hpos
      start_between := hstart
      cursor_between := between_pathEnd hstart.le_length }

/-- Everything that a step does: it ends at the end of the line, passes over a byte, ends at an operator
without a path, or takes out an operator with its path. -/
theorem step_cases (h : Sound text state) :
    (state.pos = (encode text).length ∧
      step (encode text) state =
        .ended (.parsed (state.residual ++ (encode text).drop state.copiedUpTo)
          state.redirections)) ∨
    (state.pos < (encode text).length ∧ operatorAt? (encode text) state.pos = none ∧
      step (encode text) state = .goesOn { state with pos := state.pos + 1 }) ∨
    ∃ operator start cursor, operatorAt? (encode text) state.pos = some operator ∧
      start = pathStart (encode text) state.pos operator ∧ cursor = pathEnd (encode text) start ∧
      InOrder text state.copiedUpTo state.pos start cursor ∧
      (start = cursor ∧ step (encode text) state = .ended (.missingPath operator) ∨
        start < cursor ∧
          step (encode text) state =
            .goesOn
              { copiedUpTo := cursor
                pos := cursor
                residual := state.residual ++ ((encode text).take state.pos).drop state.copiedUpTo
                redirections :=
                  state.redirections ++ [(operator, ((encode text).take cursor).drop start)] }) := by
  unfold step
  rcases Nat.lt_or_eq_of_le h.pos_le with hpos | hpos
  · right
    rw [if_pos hpos]
    cases hfound : operatorAt? (encode text) state.pos with
    | none => exact .inl ⟨hpos, rfl, rfl⟩
    | some operator =>
      right
      have horder := h.inOrder hfound
      refine ⟨operator, _, _, rfl, rfl, rfl, horder, ?_⟩
      dsimp only
      rw [piece?_encode_eq_some_iff.2
        ⟨horder.copied_le, horder.copied_between, horder.pos_between, rfl⟩]
      dsimp only
      rcases Nat.eq_or_lt_of_le horder.start_le with hempty | hpath
      · exact .inl ⟨hempty, if_pos hempty⟩
      · right
        rw [if_neg hpath.ne, piece?_encode_eq_some_iff.2
          ⟨horder.start_le, horder.start_between, horder.cursor_between, rfl⟩]
        exact ⟨hpath, rfl⟩
  · left
    rw [if_neg (by omega), piece?_encode_eq_some_iff.2
      ⟨h.copied_between.le_length, h.copied_between, .length text, rfl⟩, List.take_length]
    exact ⟨hpos, rfl⟩

theorem of_step (h : Sound text state) (hstep : step (encode text) state = .goesOn next) :
    Sound text next := by
  rcases h.step_cases with ⟨-, heq⟩ | ⟨hpos, -, heq⟩ |
    ⟨operator, start, cursor, -, -, -, horder, ⟨-, heq⟩ | ⟨-, heq⟩⟩
  all_goals cases heq.symm.trans hstep
  · exact ⟨Nat.le_succ_of_le h.copied_le, hpos, h.copied_between⟩
  · exact ⟨Nat.le_refl _, horder.cursor_le, horder.cursor_between⟩

theorem step_ne_brokenDown (h : Sound text state) :
    step (encode text) state ≠ .ended .brokenDown := by
  intro hstep
  rcases h.step_cases with ⟨-, heq⟩ | ⟨-, -, heq⟩ |
    ⟨operator, start, cursor, -, -, -, -, ⟨-, heq⟩ | ⟨-, heq⟩⟩
  all_goals cases heq.symm.trans hstep

end Sound

/-! ## The rest of a line -/

/-- What a scan results in that has found this much, if the rest of the line is cut like this. -/
def Result.completed (residual : Bytes) (redirections : List (Operator × Bytes))
    (cut : Scan UInt8) : Result :=
  match cut.incomplete? with
  | some o => .missingPath o.operator
  | none =>
    .parsed (residual ++ cut.residual)
      (redirections ++ cut.occurrences.map fun o => (o.operator, o.path))

namespace Result

variable {residual lead symbol gap path after : Bytes} {redirections : List (Operator × Bytes)}
  {occurrences : List (Occurrence UInt8)} {tail : Scan UInt8}

theorem completed_nil : completed residual redirections ⟨[], []⟩ = .parsed residual redirections := by
  simp [completed, Scan.incomplete?, Scan.residual]

theorem completed_cons (b : UInt8) :
    completed residual redirections { tail with lead := b :: tail.lead } =
      completed (residual ++ [b]) redirections tail := by
  simp [completed, Scan.incomplete?, Scan.residual]

theorem completed_of_path_eq_nil :
    completed residual redirections ⟨lead, ⟨operator, symbol, gap, [], after⟩ :: occurrences⟩ =
      .missingPath operator := by
  simp [completed, Scan.incomplete?]

theorem completed_of_path_ne_nil (h : path ≠ []) :
    completed residual redirections
        ⟨[], ⟨operator, symbol, gap, path, tail.lead⟩ :: tail.occurrences⟩ =
      completed residual (redirections ++ [(operator, path)]) tail := by
  simp [completed, Scan.incomplete?, Scan.residual, h]

end Result

/-- The rest of a line is cut at the positions of its operator. -/
theorem scan_drop_of_recognize {pos start cursor : Nat} {flag : Bool}
    (h : Operator.recognize byteView flag (bytes.drop pos) = some operator)
    (hstart : start = pathStart bytes pos operator) (hcursor : cursor = pathEnd bytes start) :
    ∃ symbol gap tail, tail = scan byteView false (bytes.drop cursor) ∧
      scan byteView flag (bytes.drop pos) =
        ⟨[], ⟨operator, symbol, gap, (bytes.take cursor).drop start, tail.lead⟩ ::
          tail.occurrences⟩ := by
  have hscan := scan_of_recognize_eq_some h
  dsimp only at hscan
  rw [← drop_pathStart, ← hstart, ← take_drop_pathEnd, ← drop_pathEnd, ← hcursor] at hscan
  exact ⟨_, _, _, rfl, hscan⟩

/-- A piece that goes on for one more byte. -/
theorem drop_take_succ {start stop : Nat} (hle : start ≤ stop) (h : stop < bytes.length) :
    (bytes.take (stop + 1)).drop start = (bytes.take stop).drop start ++ [bytes[stop]] := by
  have hlength : start ≤ (bytes.take stop).length := by
    rwa [List.length_take, Nat.min_eq_left h.le]
  rw [List.take_succ_eq_append_getElem h, List.drop_append_of_le_length hlength]

/-- A piece is empty only if its ends are the same position. -/
theorem drop_take_ne_nil {start stop : Nat} (hlt : start < stop) (h : stop ≤ bytes.length) :
    (bytes.take stop).drop start ≠ [] := by
  rw [Ne, List.drop_eq_nil_iff, List.length_take, Nat.min_eq_left h]
  omega

/-- A run goes through the pieces that the rest of the line is cut into.  The flag is any that is as
good as the byte before the position. -/
theorem run_eq_completed (h : Sound text state) {flag : Bool}
    (hflag : operatorAt? (encode text) state.pos =
      Operator.recognize byteView flag ((encode text).drop state.pos)) :
    run (encode text) state =
      .completed (state.residual ++ ((encode text).take state.pos).drop state.copiedUpTo)
        state.redirections (scan byteView flag ((encode text).drop state.pos)) := by
  fun_induction run (encode text) state generalizing flag with
  | case1 state next hstep ih =>
    have hnext : Sound text next := h.of_step hstep
    rcases h.step_cases with ⟨-, heq⟩ | ⟨hpos, hnone, heq⟩ |
      ⟨operator, start, cursor, hsome, hstart, hcursor, horder, ⟨-, heq⟩ | ⟨hpath, heq⟩⟩
    all_goals cases heq.symm.trans hstep
    · -- The byte that is passed over is still to be taken out.
      rw [hflag, List.drop_eq_getElem_cons hpos] at hnone
      rw [ih hnext (operatorAt?_succ hpos), List.drop_eq_getElem_cons hpos,
        scan_cons_of_recognize_eq_none hnone, Result.completed_cons,
        drop_take_succ h.copied_le hpos, List.append_assoc]
    · obtain ⟨symbol, gap, tail, htail, hscan⟩ :=
        scan_drop_of_recognize (hflag.symm.trans hsome) hstart hcursor
      have hbehind : operatorAt? (encode text) cursor =
          Operator.recognize byteView false ((encode text).drop cursor) := by
        rw [hcursor]
        exact operatorAt?_pathEnd horder.start_between.le_length
      rw [ih hnext hbehind, hscan,
        Result.completed_of_path_ne_nil (drop_take_ne_nil hpath horder.cursor_le), ← htail,
        List.drop_take_self, List.append_nil]
  | case2 state result hstep =>
    rcases h.step_cases with ⟨hpos, heq⟩ | ⟨-, -, heq⟩ |
      ⟨operator, start, cursor, hsome, hstart, hcursor, horder, ⟨rfl, heq⟩ | ⟨-, heq⟩⟩
    all_goals cases heq.symm.trans hstep
    · rw [hpos, List.take_length, List.drop_length, scan_nil, Result.completed_nil]
    · obtain ⟨symbol, gap, tail, -, hscan⟩ :=
        scan_drop_of_recognize (hflag.symm.trans hsome) hstart hcursor
      rw [hscan, List.drop_take_self, Result.completed_of_path_eq_nil]

/-! ## Whole lines -/

/-- The states that the scan of a line comes to, with the number of steps that lead to them. -/
inductive Reaches (bytes : Bytes) : Nat → State → Prop
  | start : Reaches bytes 0 {}
  | forward {n : Nat} {state next : State} (reached : Reaches bytes n state)
      (goesOn : step bytes state = .goesOn next) : Reaches bytes (n + 1) next

theorem Reaches.sound {n : Nat} (h : Reaches (encode text) n state) :
    Sound text state ∧ n ≤ state.pos := by
  induction h with
  | start => exact ⟨.initial text, Nat.le_refl 0⟩
  | forward _ goesOn ih =>
    obtain ⟨hsound, hn⟩ := ih
    have hpos := (pos_lt_of_step goesOn).2
    exact ⟨hsound.of_step goesOn, by omega⟩

/-- What a run comes to is the result of its last step. -/
theorem Reaches.exists_ended {n : Nat} (h : Reaches bytes n state) :
    ∃ m final, Reaches bytes m final ∧ step bytes final = .ended (run bytes state) := by
  fun_induction run bytes state generalizing n with
  | case1 state next hstep ih => exact ih (h.forward hstep)
  | case2 state result hstep => exact ⟨n, state, h, hstep⟩

theorem run_encode (text : Text) :
    run (encode text) {} = .completed [] [] (scan id true text).encoded := by
  rw [← scan_encode]
  exact run_eq_completed (.initial text) rfl

theorem run_of_incomplete?_eq_none (h : (scan id true text).incomplete? = none) :
    run (encode text) {} =
      .parsed (encode (scan id true text).residual)
        ((scan id true text).occurrences.map fun o => (o.operator, encode o.path)) := by
  rw [run_encode, Result.completed, Scan.incomplete?_encoded, h, Scan.residual_encoded]
  simp [Scan.encoded, Occurrence.encoded]

theorem run_of_incomplete?_eq_some {o : Occurrence Char}
    (h : (scan id true text).incomplete? = some o) :
    run (encode text) {} = .missingPath o.operator := by
  rw [run_encode, Result.completed, Scan.incomplete?_encoded, h]
  rfl

/-- Scanning the bytes of a line is safe.  Whatever state the scan comes to, the positions where the line
is cut are in order, within the line and between characters, so that no piece is asked for that is not
there.  Each step moves on, and the scan ends after at most as many steps as the line has bytes.  What
it comes to are the encodings of what parsing the characters of the line gives. -/
theorem run_safe_on_encoded_line {text : Text} {bytes : Bytes} (h : decode? bytes = some text) :
    (∀ n state, Reaches bytes n state →
      state.copiedUpTo ≤ state.pos ∧ state.pos ≤ bytes.length ∧ Between text state.copiedUpTo ∧
        (∀ operator, operatorAt? bytes state.pos = some operator →
          InOrder text state.copiedUpTo state.pos (pathStart bytes state.pos operator)
            (pathEnd bytes (pathStart bytes state.pos operator))) ∧
        step bytes state ≠ .ended .brokenDown ∧
        ∀ next, step bytes state = .goesOn next → state.pos < next.pos) ∧
      (∃ n ≤ bytes.length, ∃ state, Reaches bytes n state ∧
        step bytes state = .ended (run bytes {})) ∧
      (∀ parsed, parse text = .ok parsed →
        run bytes {} =
            .parsed (encode parsed.residual)
              ((scan id true text).occurrences.map fun o => (o.operator, encode o.path)) ∧
          parsed.targets = (scan id true text).targets) ∧
      (∀ fault, parse text = .error fault →
        ∃ operator, fault = .missingPath operator ∧ run bytes {} = .missingPath operator) := by
  obtain rfl := decode?_eq_some_iff.1 h
  refine ⟨fun n state hreaches => ?_, ?_, fun parsed hparsed => ?_, fun fault hfault => ?_⟩
  · obtain ⟨hsound, -⟩ := hreaches.sound
    exact ⟨hsound.copied_le, hsound.pos_le, hsound.copied_between, fun operator => hsound.inOrder,
      hsound.step_ne_brokenDown, fun next hstep => (pos_lt_of_step hstep).2⟩
  · have hstart : Reaches (encode text) 0 {} := .start
    obtain ⟨n, final, hfinal, hended⟩ := hstart.exists_ended
    obtain ⟨hsound, hn⟩ := hfinal.sound
    exact ⟨n, hn.trans hsound.pos_le, final, hfinal, hended⟩
  · cases hcut : (scan id true text).incomplete? with
    | none =>
      obtain rfl := Except.ok.inj ((parse_of_incomplete?_eq_none hcut).symm.trans hparsed)
      exact ⟨run_of_incomplete?_eq_none hcut, rfl⟩
    | some o => cases (parse_of_incomplete?_eq_some hcut).symm.trans hparsed
  · cases hcut : (scan id true text).incomplete? with
    | none => cases (parse_of_incomplete?_eq_none hcut).symm.trans hfault
    | some o =>
      obtain rfl := Except.error.inj ((parse_of_incomplete?_eq_some hcut).symm.trans hfault)
      exact ⟨o.operator, rfl, run_of_incomplete?_eq_some hcut⟩

/-- The digit in `é2>ü<ñ` ends a word and stays where it is, and each path is one character of two
bytes. -/
theorem run_safe_on_encoded_line_two_byte_characters :
    decode? [195, 169, 50, 62, 195, 188, 60, 195, 177] = some "é2>ü<ñ".toList ∧
      run [195, 169, 50, 62, 195, 188, 60, 195, 177] {} =
        .parsed [195, 169, 50] [(.output .truncate, [195, 188]), (.input, [195, 177])] := by
  have hline : decode? [195, 169, 50, 62, 195, 188, 60, 195, 177] = some "é2>ü<ñ".toList := by
    decide +kernel
  have hparse : parse "é2>ü<ñ".toList =
      .ok ⟨"é2".toList, (scan id true "é2>ü<ñ".toList).targets⟩ := by
    decide +kernel
  obtain ⟨-, -, hparsed, -⟩ := run_safe_on_encoded_line hline
  refine ⟨hline, (hparsed _ hparse).1.trans ?_⟩
  decide +kernel

end ByteScan

end LineShell.Redirection
