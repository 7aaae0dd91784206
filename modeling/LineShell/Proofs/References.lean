import LineShell.Proofs.Decomposition
import LineShell.Variables.Substitution

/-!
# References in a text

A text refers to a name where the name stands behind a dollar sign and could not be longer.  This
says nothing of how references are looked for.  Cutting a word into pieces finds exactly these
(`mem_pieces_iff`): the scan goes on behind each name that it takes, but a name holds no dollar sign,
so no reference begins within another one.

Two facts follow for substitution.  What a word becomes depends on the names that it refers to and on
nothing else of the variables (`Scope.substitute_congr`), and a word that refers to no name becomes
itself (`Scope.substitute_of_not_refers`).  So an argument is dropped only where a reference stood
(`Scope.argument?_eq_none_iff`).
-/

namespace LineShell

open Redirection (IsRun)

/-- The name stands in the text behind a dollar sign, and it cannot go on behind its last
character. -/
structure Text.Refers (text name : Text) : Prop where
  isValidName : isValidName name = true
  stands : ∃ before after, text = before ++ '$' :: (name ++ after) ∧
    ∀ c ∈ after.head?, isNameChar c = false

/-! ## Names -/

theorem isNameChar_of_isNameStart {c : Char} (h : isNameStart c = true) : isNameChar c = true := by
  unfold isNameStart at h
  unfold isNameChar Char.isAlphanum
  rw [Bool.or_eq_true] at h ⊢
  exact h.imp (fun halpha => by rw [halpha, Bool.true_or]) id

theorem isNameChar_dollar : isNameChar '$' = false := by decide

/-- A name is a run of its characters that begins like a name. -/
theorem isValidName_iff {name : Text} :
    isValidName name = true ↔ startsName name = true ∧ ∀ c ∈ name, isNameChar c = true := by
  cases name with
  | nil => simp [isValidName, startsName]
  | cons c rest =>
    unfold isValidName startsName
    rw [Bool.and_eq_true, List.all_eq_true, List.forall_mem_cons]
    exact ⟨fun h => ⟨h.1, isNameChar_of_isNameStart h.1, h.2⟩, fun h => ⟨h.1, h.2.2⟩⟩

theorem startsName_append {name : Text} (h : startsName name = true) (rest : Text) :
    startsName (name ++ rest) = true := by
  cases name with
  | nil => cases h
  | cons c name => exact h

/-- The longest name at the beginning of a text. -/
theorem isValidName_takeWhile {text : Text} (h : startsName text = true) :
    isValidName (text.takeWhile isNameChar) = true := by
  refine isValidName_iff.2 ⟨?_, fun c hc => List.mem_takeWhile_imp hc⟩
  cases text with
  | nil => cases h
  | cons c rest =>
    rw [List.takeWhile_cons_of_pos (isNameChar_of_isNameStart h)]
    exact h

/-! ## Pieces -/

/-- A dollar sign behind a text is still there when a name was taken off its front. -/
theorem exists_dropWhile_eq (before after : Text) :
    ∃ kept, (before ++ '$' :: after).dropWhile isNameChar = kept ++ '$' :: after := by
  rw [List.dropWhile_append]
  split
  · exact ⟨[], List.dropWhile_cons_of_neg (by simp [isNameChar_dollar])⟩
  · exact ⟨_, rfl⟩

theorem refers_of_mem_pieces {text name : Text} (h : Piece.reference name ∈ pieces text) :
    text.Refers name := by
  fun_induction pieces text with
  | case1 => simp at h
  | case2 c rest hreference ih =>
    obtain ⟨rfl, hstarts⟩ := hreference
    rcases List.mem_cons.1 h with hfirst | hlater
    · cases hfirst
      refine ⟨isValidName_takeWhile hstarts, [], rest.dropWhile isNameChar, ?_, ?_⟩
      · rw [List.takeWhile_append_dropWhile, List.nil_append]
      · exact (IsRun.of_span isNameChar rest).maximal
    · obtain ⟨hvalid, before, after, hrest, hafter⟩ := ih hlater
      refine ⟨hvalid, '$' :: rest.takeWhile isNameChar ++ before, after, ?_, hafter⟩
      rw [List.append_assoc, ← hrest, List.cons_append, List.takeWhile_append_dropWhile]
  | case3 c rest _ ih =>
    obtain ⟨hvalid, before, after, hrest, hafter⟩ := ih (by simpa using h)
    exact ⟨hvalid, c :: before, after, by rw [hrest, List.cons_append], hafter⟩

theorem mem_pieces_of_refers {text name : Text} (h : text.Refers name) :
    Piece.reference name ∈ pieces text := by
  obtain ⟨hvalid, before, after, htext, hafter⟩ := h
  obtain ⟨hstarts, hname⟩ := isValidName_iff.1 hvalid
  have hrun : IsRun isNameChar name after := ⟨hname, hafter⟩
  fun_induction pieces text generalizing before with
  | case1 => simp at htext
  | case2 c rest hreference ih =>
    rcases List.cons_eq_append_iff.1 htext with ⟨rfl, hfirst⟩ | ⟨before, rfl, hrest⟩
    · obtain ⟨-, rfl⟩ := List.cons.inj hfirst
      rw [hrun.takeWhile_append]
      exact List.mem_cons_self
    · obtain ⟨kept, hkept⟩ := exists_dropWhile_eq before (name ++ after)
      rw [← hrest] at hkept
      exact List.mem_cons_of_mem _ (ih kept hkept)
  | case3 c rest hliteral ih =>
    rcases List.cons_eq_append_iff.1 htext with ⟨rfl, hfirst⟩ | ⟨before, rfl, hrest⟩
    · obtain ⟨rfl, rfl⟩ := List.cons.inj hfirst
      exact absurd ⟨rfl, startsName_append hstarts after⟩ hliteral
    · exact List.mem_cons_of_mem _ (ih before hrest)

/-- Cutting a text into pieces finds the names that it refers to. -/
theorem mem_pieces_iff {text name : Text} :
    Piece.reference name ∈ pieces text ↔ text.Refers name :=
  ⟨refers_of_mem_pieces, mem_pieces_of_refers⟩

instance (text name : Text) : Decidable (text.Refers name) :=
  decidable_of_iff _ mem_pieces_iff

theorem any_isReference_iff {text : Text} :
    (pieces text).any Piece.isReference = true ↔ ∃ name, text.Refers name := by
  simp only [List.any_eq_true, ← mem_pieces_iff]
  constructor
  · rintro ⟨_ | name, hmem, href⟩
    · cases href
    · exact ⟨name, hmem⟩
  · rintro ⟨name, hmem⟩
    exact ⟨_, hmem, rfl⟩

/-! ## Substitution -/

namespace Scope

variable {a b scope : Scope} {word : Text}

/-- The names that a word refers to are all that its value depends on. -/
theorem substitute_congr (h : ∀ name, word.Refers name → a.lookup name = b.lookup name) :
    a.substitute word = b.substitute word := by
  refine List.flatMap_congr fun piece hpiece => ?_
  cases piece with
  | literal c => rfl
  | reference name =>
    change (a.lookup name).getD [] = (b.lookup name).getD []
    rw [h name (mem_pieces_iff.1 hpiece)]

theorem argument?_congr (h : ∀ name, word.Refers name → a.lookup name = b.lookup name) :
    a.argument? word = b.argument? word := by
  unfold argument?
  rw [substitute_congr h]

theorem substitute_of_not_refers (h : ∀ name, ¬ word.Refers name) :
    scope.substitute word = word := by
  calc
    scope.substitute word = (pieces word).flatMap Piece.written := by
      refine List.flatMap_congr fun piece hpiece => ?_
      cases piece with
      | literal c => rfl
      | reference name => exact absurd (mem_pieces_iff.1 hpiece) (h name)
    _ = word := flatMap_written_pieces word

/-- A word is dropped if it refers to a name and nothing comes of it. -/
theorem argument?_eq_none_iff :
    scope.argument? word = none ↔ (∃ name, word.Refers name) ∧ scope.substitute word = [] := by
  rw [← any_isReference_iff, ← List.isEmpty_iff, ← Bool.and_eq_true]
  unfold argument?
  dsimp only
  split
  · next hdropped => exact iff_of_true rfl hdropped
  · next hkept => exact iff_of_false nofun hkept

/-- Any other word becomes its value. -/
theorem argument?_eq_some_iff {argument : Text} :
    scope.argument? word = some argument ↔
      ¬ ((∃ name, word.Refers name) ∧ scope.substitute word = []) ∧
        argument = scope.substitute word := by
  rw [← argument?_eq_none_iff]
  unfold argument?
  dsimp only
  split
  · simp
  · simp [eq_comm]

/-- No argument is empty unless the word was. -/
theorem argument_ne_nil {argument : Text} (hword : word ≠ [])
    (h : scope.argument? word = some argument) : argument ≠ [] := by
  obtain ⟨hkept, rfl⟩ := argument?_eq_some_iff.1 h
  intro hempty
  by_cases hrefers : ∃ name, word.Refers name
  · exact hkept ⟨hrefers, hempty⟩
  · rw [substitute_of_not_refers (not_exists.1 hrefers)] at hempty
    exact hword hempty

end Scope

end LineShell
