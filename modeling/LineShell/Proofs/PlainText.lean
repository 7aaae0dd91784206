import LineShell.CommandLine
import LineShell.Proofs.Reading
import LineShell.Text.Numeral

/-!
# Texts that stand for themselves

A few characters mean something else than themselves: `#` may begin a comment, `$` a reference, and
no redirection is without `<` or `>`.  The lemmas here say what the readers of a line make of a text
that does without such characters: they give it back as it is.  A line of two words of that kind
becomes just these words (`Text.IsLiteralWord.read_pair`, `Text.IsLiteralWord.arguments_pair`).

Numerals are texts of that kind, and reading the numeral of a number gives the number
(`Numeral.readSize_ofNat`).
-/

namespace LineShell

/-! ## Redirections -/

namespace Redirection

/-- Every operator is written with an angle bracket. -/
theorem Operator.mem_symbol (operator : Operator) : '<' ∈ operator.symbol ∨ '>' ∈ operator.symbol := by
  rcases operator with _ | (_ | _) | _ | (_ | _) <;> decide

theorem Operator.not_symbol_isPrefix {text : Text} (hless : '<' ∉ text) (hgreater : '>' ∉ text)
    (operator : Operator) : ¬ operator.symbol <+: text := by
  intro hsymbol
  rcases operator.mem_symbol with hmem | hmem
  · exact hless (hsymbol.subset hmem)
  · exact hgreater (hsymbol.subset hmem)

theorem Operator.recognize_of_not_mem {line : Text} (hless : '<' ∉ line) (hgreater : '>' ∉ line)
    (atWordStart : Bool) : recognize id atWordStart line = none := by
  refine List.find?_eq_none.2 fun operator _ hstarts => ?_
  have hsymbol : operator.symbol = line.take operator.symbol.length := by
    simpa using (Bool.and_eq_true_iff.1 hstarts).2
  exact operator.not_symbol_isPrefix hless hgreater (List.prefix_iff_eq_take.2 hsymbol)

theorem scan_nil {α : Type} (view : α → Char) (atWordStart : Bool) :
    scan view atWordStart [] = ⟨[], []⟩ := by
  rw [scan]
  split
  · next operator hoperator => exact absurd rfl (Operator.ne_nil_of_recognize hoperator)
  · rfl

/-- A character where no operator begins is plain text. -/
theorem scan_cons_of_recognize_eq_none {α : Type} {view : α → Char} {atWordStart : Bool} {c : α}
    {rest : List α} (h : Operator.recognize view atWordStart (c :: rest) = none) :
    scan view atWordStart (c :: rest) =
      let tail := scan view (Text.isAsciiBlank (view c)) rest
      { tail with lead := c :: tail.lead } := by
  rw [scan]
  split
  · next operator hoperator =>
    rw [h] at hoperator
    cases hoperator
  · rfl

theorem scan_of_not_mem {line : Text} (hless : '<' ∉ line) (hgreater : '>' ∉ line)
    (atWordStart : Bool) : scan id atWordStart line = ⟨line, []⟩ := by
  induction line generalizing atWordStart with
  | nil => exact scan_nil id atWordStart
  | cons c rest ih =>
    rw [scan_cons_of_recognize_eq_none (Operator.recognize_of_not_mem hless hgreater atWordStart),
      ih (List.not_mem_of_not_mem_cons hless) (List.not_mem_of_not_mem_cons hgreater)]

/-- A line without angle brackets has no redirections. -/
theorem parse_of_not_mem {line : Text} (hless : '<' ∉ line) (hgreater : '>' ∉ line) :
    parse line = .ok { residual := line, targets := .empty } := by
  unfold parse
  rw [scan_of_not_mem hless hgreater]
  simp [Scan.incomplete?, Scan.residual, Scan.targets]

end Redirection

/-! ## Comments and words -/

namespace Text

theorem beforeComment_of_not_mem {text : Text} (h : '#' ∉ text) (atWordStart : Bool) :
    beforeComment atWordStart text = text := by
  induction text generalizing atWordStart with
  | nil => rfl
  | cons c rest ih =>
    obtain ⟨hc, hrest⟩ := List.ne_and_not_mem_of_not_mem_cons h
    rw [beforeComment, if_neg fun hcomment => hc hcomment.1.symm, ih hrest]

/-- A text without a number sign and without blanks around it is all significant. -/
theorem significant_of_not_mem {text : Text} (hcomment : '#' ∉ text) (htrim : trim text = text) :
    significant text = text := by
  unfold significant stripComment
  rw [beforeComment_of_not_mem hcomment, htrim]

/-- A text without blanks is one word. -/
theorem words_of_not_blank {text : Text} (hne : text ≠ []) (h : ∀ c ∈ text, isBlank c = false) :
    words text = [text] := by
  unfold words
  rw [List.splitOnP_eq_singleton fun c hc => by simp [h c hc]]
  simp [hne]

end Text

/-! ## References -/

theorem pieces_of_not_mem {word : Text} (h : '$' ∉ word) : pieces word = word.map .literal := by
  induction word with
  | nil => simp [pieces]
  | cons c rest ih =>
    obtain ⟨hc, hrest⟩ := List.ne_and_not_mem_of_not_mem_cons h
    rw [pieces, if_neg fun hreference => hc hreference.1.symm, ih hrest, List.map_cons]

/-- A word without a dollar sign is its own argument, whatever the variables are. -/
theorem Scope.argument?_of_not_mem {word : Text} (scope : Scope) (h : '$' ∉ word) :
    scope.argument? word = some word := by
  have hreferences : (pieces word).any Piece.isReference = false := by
    rw [pieces_of_not_mem h]
    simp [Piece.isReference]
  have hvalue : scope.substitute word = word := by
    unfold Scope.substitute
    rw [pieces_of_not_mem h]
    simp [List.flatMap_map, expandPiece]
  unfold Scope.argument?
  rw [hreferences, hvalue]
  rfl

/-! ## Plain words -/

namespace Text

theorem isBlank_space : isBlank ' ' = true := by decide

/-- A word that holds neither blanks nor angle brackets. -/
structure IsPlainWord (word : Text) : Prop where
  ne_nil : word ≠ []
  not_blank : ∀ c ∈ word, isBlank c = false
  not_less : '<' ∉ word
  not_greater : '>' ∉ word

theorem isPlainWord_iff {word : Text} :
    IsPlainWord word ↔
      word ≠ [] ∧ word.all (fun c => !isBlank c && (c != '<' && c != '>')) = true := by
  simp only [List.all_eq_true, Bool.and_eq_true, Bool.not_eq_true', bne_iff_ne]
  constructor
  · intro h
    refine ⟨h.ne_nil, fun c hc => ⟨h.not_blank c hc, ?_, ?_⟩⟩
    · exact ne_of_mem_of_not_mem hc h.not_less
    · exact ne_of_mem_of_not_mem hc h.not_greater
  · rintro ⟨hne, hall⟩
    exact
      { ne_nil := hne
        not_blank := fun c hc => (hall c hc).1
        not_less := fun hc => (hall '<' hc).2.1 rfl
        not_greater := fun hc => (hall '>' hc).2.2 rfl }

instance (word : Text) : Decidable (IsPlainWord word) := decidable_of_iff _ isPlainWord_iff.symm

theorem IsPlainWord.words_eq {word : Text} (h : IsPlainWord word) : words word = [word] :=
  words_of_not_blank h.ne_nil h.not_blank

/-- A plain word that a line hands to its command as it is, since no comment begins in it and it refers
to nothing. -/
structure IsLiteralWord (word : Text) : Prop extends IsPlainWord word where
  not_comment : '#' ∉ word
  not_reference : '$' ∉ word

/-- The line of a word and another one behind it, with a space between them. -/
def pair (first second : Text) : Text := first ++ ' ' :: second

theorem not_mem_pair {first second : Text} {c : Char} (hfirst : c ∉ first) (hsecond : c ∉ second)
    (hspace : c ≠ ' ') : c ∉ pair first second := by
  unfold pair
  rw [List.mem_append, List.mem_cons]
  rintro (hc | hc | hc)
  · exact hfirst hc
  · exact hspace hc
  · exact hsecond hc

namespace IsLiteralWord

variable {first second : Text}

theorem significant_pair (hfirst : IsLiteralWord first) (hsecond : IsLiteralWord second) :
    significant (pair first second) = pair first second := by
  refine significant_of_not_mem
    (not_mem_pair hfirst.not_comment hsecond.not_comment (by decide)) (trim_eq_self ?_ ?_)
  · intro c hc
    unfold pair at hc
    rw [List.head?_append_of_ne_nil _ hfirst.ne_nil] at hc
    exact hfirst.not_blank c (List.mem_of_mem_head? hc)
  · intro c hc
    unfold pair at hc
    rw [List.getLast?_append_of_ne_nil _ (List.cons_ne_nil _ _),
      List.getLast?_cons_of_ne_nil hsecond.ne_nil] at hc
    exact hsecond.not_blank c (List.mem_of_mem_getLast? hc)

theorem words_pair (hfirst : IsLiteralWord first) (hsecond : IsLiteralWord second) :
    words (pair first second) = [first, second] := by
  unfold pair
  rw [words_append_blank isBlank_space, hfirst.words_eq, hsecond.words_eq]
  rfl

/-- The line has the two words and no redirections. -/
theorem read_pair (hfirst : IsLiteralWord first) (hsecond : IsLiteralWord second) :
    CommandLine.read (pair first second) =
      .command { text := pair first second, words := [first, second], targets := .empty } := by
  have hparse : Redirection.parse (pair first second) = .ok ⟨pair first second, .empty⟩ :=
    Redirection.parse_of_not_mem (not_mem_pair hfirst.not_less hsecond.not_less (by decide))
      (not_mem_pair hfirst.not_greater hsecond.not_greater (by decide))
  have hwords := hfirst.words_pair hsecond
  refine CommandLine.read_eq_command_iff.2 ?_
  rw [hfirst.significant_pair hsecond]
  refine ⟨List.append_ne_nil_of_left_ne_nil hfirst.ne_nil _,
    CommandLine.parse_eq_ok_iff.2 ⟨_, hparse, ?_, ?_⟩⟩
  · rw [hwords]
    show 2 ≤ maxWords
    decide
  · rw [hwords]

/-- The words have nothing to expand. -/
theorem arguments_pair (hfirst : IsLiteralWord first) (hsecond : IsLiteralWord second)
    (scope : Scope) : scope.arguments [first, second] = [first, second] := by
  unfold Scope.arguments
  rw [List.filterMap_cons_some (scope.argument?_of_not_mem hfirst.not_reference),
    List.filterMap_cons_some (scope.argument?_of_not_mem hsecond.not_reference),
    List.filterMap_nil]

end IsLiteralWord

end Text

/-! ## Numerals -/

theorem Text.ofNat_ne_nil (n : Nat) : ofNat n ≠ [] := Nat.toDigits_ne_nil

theorem Text.isDigit_of_mem_ofNat {n : Nat} {c : Char} (h : c ∈ ofNat n) : c.isDigit = true :=
  Nat.isDigit_of_mem_toDigits (by decide) (by decide) h

/-- Digits stand for themselves. -/
theorem Text.not_mem_ofNat (n : Nat) {c : Char} (h : c.isDigit = false) : c ∉ ofNat n := by
  intro hc
  rw [isDigit_of_mem_ofNat hc] at h
  cases h

theorem Text.isBlank_of_isDigit {c : Char} (h : c.isDigit = true) : isBlank c = false := by
  rw [Char.isDigit_iff_toNat] at h
  have hlow : 48 ≤ c.toNat := h.1
  have hhigh : c.toNat ≤ 57 := h.2
  unfold isBlank
  simp only [Bool.or_eq_false_iff, Bool.and_eq_false_iff, decide_eq_false_iff_not, beq_eq_false_iff_ne]
  omega

theorem Text.isLiteralWord_ofNat (n : Nat) : IsLiteralWord (ofNat n) where
  ne_nil := ofNat_ne_nil n
  not_blank _ hc := isBlank_of_isDigit (isDigit_of_mem_ofNat hc)
  not_less := not_mem_ofNat n (by decide)
  not_greater := not_mem_ofNat n (by decide)
  not_comment := not_mem_ofNat n (by decide)
  not_reference := not_mem_ofNat n (by decide)

namespace Numeral

/-- Digits are read if the number that they spell is within the limit. -/
theorem readDigits_eq_ok {limit value : Nat} {text : Text} (hdigits : ∀ c ∈ text, c.isDigit = true)
    (hlimit : Nat.ofDigitChars 10 text value ≤ limit) :
    readDigits limit value text = .ok (Nat.ofDigitChars 10 text value) := by
  induction text generalizing value with
  | nil => rw [readDigits, Nat.ofDigitChars_nil]
  | cons c rest ih =>
    obtain ⟨hc, hrest⟩ := List.forall_mem_cons.1 hdigits
    rw [Nat.ofDigitChars_cons] at hlimit ⊢
    -- What has been read so far is no more than what will have been read.
    have hvalue : 10 * value + (c.toNat - '0'.toNat) ≤ limit := by
      rw [Nat.ofDigitChars_eq_ofDigitChars_zero] at hlimit
      have hpower : 1 ≤ 10 ^ rest.length := Nat.one_le_pow _ _ (by decide)
      have := Nat.mul_le_mul_right (10 * value + (c.toNat - '0'.toNat)) hpower
      omega
    rw [readDigits, digit?, if_pos hc, Nat.mul_comm value 10]
    dsimp only
    rw [if_pos hvalue, ih hrest hlimit]

/-- The numeral of a size is read as that size. -/
theorem readSize_ofNat {n : Nat} (h : n ≤ maxSize) : readSize (Text.ofNat n) = .ok n := by
  have hvalue : Nat.ofDigitChars 10 (Text.ofNat n) 0 = n := Nat.ofDigitChars_ten_toDigits
  have hread : readDigits maxSize 0 (Text.ofNat n) = .ok n := by
    rw [readDigits_eq_ok (fun c hc => Text.isDigit_of_mem_ofNat hc) (by rwa [hvalue]), hvalue]
  have hplus : '+' ∉ Text.ofNat n := Text.not_mem_ofNat n (by decide)
  unfold readSize
  split
  · next hnil => exact absurd hnil (Text.ofNat_ne_nil n)
  · next hsigned => exact absurd (hsigned ▸ List.mem_cons_self) hplus
  · unfold readUnsigned
    split
    · next hnil => exact absurd hnil (Text.ofNat_ne_nil n)
    · exact hread

end Numeral

end LineShell
