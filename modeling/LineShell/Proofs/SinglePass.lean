import LineShell.Proofs.LineParts

/-!
# Substitution is one pass

Two descriptions of substitution look at the text itself and not at its pieces.

* `Scope.Scans` goes from left to right.  Where a reference stands it takes the longest name, puts
  the value of that name in its place and goes on behind the name; any other character is copied.
* `Scope.Replaces` looks for the first reference in the text, copies what stands before it, and does
  the same with what is behind it.

Both give exactly one result for every text, and that is what substitution gives (`scans_iff`,
`replaces_iff`).  A value is put into the result and never into the text that is still to be looked
at, so whatever it contains is not a reference.

A text may be cut in front of any character that could not go on a name: no reference stands across
the cut (`Scope.substitute_append`).
-/

namespace LineShell

open Redirection (IsRun)

/-! ## References at the beginning of a text -/

/-- The text begins with a dollar sign and the name, and this is behind them. -/
structure Text.BeginsWithReference (text name rest : Text) : Prop where
  written : text = '$' :: (name ++ rest)
  isValidName : isValidName name = true

/-- Of all names that the text begins with behind a dollar sign, this is the longest. -/
structure Text.LongestReference (text name rest : Text) : Prop
    extends text.BeginsWithReference name rest where
  length_le : ∀ name' rest', text.BeginsWithReference name' rest' → name'.length ≤ name.length

/-- A reference stands at the beginning of the text. -/
def Text.HasReference (text : Text) : Prop := ∃ name rest, text.BeginsWithReference name rest

namespace Text

variable {text name rest : Text} {c : Char}

theorem not_hasReference_nil : ¬ HasReference [] := by
  rintro ⟨name, rest, hwritten, -⟩
  cases hwritten

/-- It takes a dollar sign and the first character of a name. -/
theorem hasReference_cons_iff :
    HasReference (c :: rest) ↔ c = '$' ∧ startsName rest = true := by
  constructor
  · rintro ⟨name, behind, hwritten, hvalid⟩
    obtain ⟨rfl, rfl⟩ := List.cons.inj hwritten
    exact ⟨rfl, startsName_append (isValidName_iff.1 hvalid).1 behind⟩
  · rintro ⟨rfl, hstarts⟩
    refine ⟨rest.takeWhile isNameChar, rest.dropWhile isNameChar, ?_, isValidName_takeWhile hstarts⟩
    rw [List.takeWhile_append_dropWhile]

/-- The longest name is a whole run of name characters. -/
theorem longestReference_iff :
    text.LongestReference name rest ↔
      text.BeginsWithReference name rest ∧ ∀ c ∈ rest.head?, isNameChar c = false := by
  constructor
  · intro h
    refine ⟨h.toBeginsWithReference, fun c hc => ?_⟩
    rw [← Bool.not_eq_true]
    intro hchar
    -- Otherwise the name with this character would be a longer one.
    obtain ⟨behind, rfl⟩ := List.head?_eq_some_iff.1 hc
    obtain ⟨hstarts, hname⟩ := isValidName_iff.1 h.isValidName
    have hlonger : text.BeginsWithReference (name ++ [c]) behind :=
      { written := by rw [h.written, List.append_assoc, List.singleton_append]
        isValidName := by
          refine isValidName_iff.2 ⟨startsName_append hstarts _, fun d hd => ?_⟩
          rcases List.mem_append.1 hd with hd | hd
          · exact hname d hd
          · rw [List.mem_singleton.1 hd, hchar] }
    have hlength := h.length_le _ _ hlonger
    rw [List.length_append, List.length_singleton] at hlength
    omega
  · rintro ⟨hbegins, hmaximal⟩
    refine ⟨hbegins, fun name' rest' hother => ?_⟩
    have hrun : IsRun isNameChar name rest := ⟨(isValidName_iff.1 hbegins.isValidName).2, hmaximal⟩
    have hsame : name ++ rest = name' ++ rest' :=
      List.cons_injective (hbegins.written.symm.trans hother.written)
    -- The other name consists of name characters, so it lies within the run.
    have hname' : (name' ++ rest').takeWhile isNameChar = name' ++ rest'.takeWhile isNameChar :=
      List.takeWhile_append_of_pos (isValidName_iff.1 hother.isValidName).2
    rw [← hsame, hrun.takeWhile_append] at hname'
    rw [hname', List.length_append]
    omega

/-- Where a reference stands, the longest name is the run of name characters behind the dollar
sign. -/
theorem longestReference_takeWhile (h : startsName text = true) :
    LongestReference ('$' :: text) (text.takeWhile isNameChar) (text.dropWhile isNameChar) := by
  refine longestReference_iff.2 ⟨⟨?_, isValidName_takeWhile h⟩, ?_⟩
  · rw [List.takeWhile_append_dropWhile]
  · exact (IsRun.of_span isNameChar text).maximal

/-- What is appended to a text adds no reference at its beginning and does not go on the one that
stands there, unless it begins with a name character. -/
theorem hasReference_append (h : ∀ c ∈ rest.head?, isNameChar c = false)
    (hne : text ≠ []) : HasReference (text ++ rest) ↔ text.HasReference := by
  obtain ⟨c, text, rfl⟩ := List.exists_cons_of_ne_nil hne
  rw [List.cons_append, hasReference_cons_iff, hasReference_cons_iff]
  refine and_congr_right fun _ => ?_
  cases text with
  | cons d text => rfl
  | nil =>
    refine ⟨fun hstarts => ?_, nofun⟩
    cases rest with
    | nil => exact hstarts
    | cons d rest =>
      have hchar : isNameChar d = true := isNameChar_of_isNameStart hstarts
      rw [h d rfl] at hchar
      cases hchar

theorem LongestReference.append (h : text.LongestReference name rest) {behind : Text}
    (hbehind : ∀ c ∈ behind.head?, isNameChar c = false) :
    (text ++ behind).LongestReference name (rest ++ behind) := by
  obtain ⟨⟨hwritten, hvalid⟩, hmaximal⟩ := longestReference_iff.1 h
  refine longestReference_iff.2 ⟨⟨?_, hvalid⟩, forall_head?_append hmaximal hbehind⟩
  rw [hwritten, List.cons_append, List.append_assoc]

end Text

/-! ## Two descriptions of substitution -/

namespace Scope

/-- What stands for a reference: the exported value of the name, or else the local one, or else
nothing. -/
def valueOf (scope : Scope) (name : Text) : Text :=
  match scope.exported.get? name with
  | some value => value
  | none =>
    match scope.locals.get? name with
    | some value => value
    | none => []

/-- The result of going through a text from left to right. -/
inductive Scans (scope : Scope) : Text → Text → Prop where
  | done : Scans scope [] []
  /-- A character where no reference begins is copied. -/
  | copied {c : Char} {rest result : Text} (plain : ¬ Text.HasReference (c :: rest))
      (next : Scans scope rest result) : Scans scope (c :: rest) (c :: result)
  /-- The longest name is replaced, and the scan goes on behind it. -/
  | replaced {text name rest result : Text} (longest : text.LongestReference name rest)
      (next : Scans scope rest result) : Scans scope text (scope.valueOf name ++ result)

/-- The result of replacing the first reference of a text, as often as there is one behind the last
one replaced. -/
inductive Replaces (scope : Scope) : Text → Text → Prop where
  | none {text : Text}
      (plain : ∀ front back, text = front ++ back → ¬ back.HasReference) :
      Replaces scope text text
  | first {before text name rest result : Text}
      (earliest : ∀ front back, before = front ++ back → back ≠ [] →
        ¬ Text.HasReference (back ++ text))
      (longest : text.LongestReference name rest) (next : Replaces scope rest result) :
      Replaces scope (before ++ text) (before ++ (scope.valueOf name ++ result))

variable {scope : Scope} {c : Char} {text name rest word result : Text}

theorem getD_lookup (scope : Scope) (name : Text) :
    (scope.lookup name).getD [] = scope.valueOf name := by
  unfold lookup valueOf
  cases scope.exported.get? name with
  | some value => rfl
  | none => cases scope.locals.get? name <;> rfl

/-! ## The steps of substitution -/

theorem substitute_nil (scope : Scope) : scope.substitute [] = [] := by
  unfold substitute
  rw [pieces, List.flatMap_nil]

theorem substitute_cons (h : ¬ Text.HasReference (c :: rest)) :
    scope.substitute (c :: rest) = c :: scope.substitute rest := by
  unfold substitute
  rw [pieces, if_neg fun hreference => h (Text.hasReference_cons_iff.2 hreference)]
  rfl

theorem substitute_of_longestReference (h : text.LongestReference name rest) :
    scope.substitute text = scope.valueOf name ++ scope.substitute rest := by
  obtain ⟨⟨rfl, hvalid⟩, hmaximal⟩ := Text.longestReference_iff.1 h
  obtain ⟨hstarts, hname⟩ := isValidName_iff.1 hvalid
  have hrun : IsRun isNameChar name rest := ⟨hname, hmaximal⟩
  unfold substitute
  rw [pieces, if_pos ⟨rfl, startsName_append hstarts rest⟩, hrun.takeWhile_append,
    hrun.dropWhile_append, List.flatMap_cons]
  exact congrArg (· ++ _) (scope.getD_lookup name)

/-! ## The scan -/

theorem Scans.result_eq (h : scope.Scans word result) : result = scope.substitute word := by
  induction h with
  | done => exact (substitute_nil scope).symm
  | copied plain _ ih => rw [substitute_cons plain, ih]
  | replaced longest _ ih => rw [substitute_of_longestReference longest, ih]

theorem scans_substitute (scope : Scope) (word : Text) :
    scope.Scans word (scope.substitute word) := by
  fun_induction pieces word with
  | case1 =>
    rw [substitute_nil]
    exact .done
  | case2 c rest hreference ih =>
    obtain ⟨rfl, hstarts⟩ := hreference
    have hlongest := Text.longestReference_takeWhile hstarts
    rw [substitute_of_longestReference hlongest]
    exact .replaced hlongest ih
  | case3 c rest hliteral ih =>
    have hplain : ¬ Text.HasReference (c :: rest) := fun h =>
      hliteral (Text.hasReference_cons_iff.1 h)
    rw [substitute_cons hplain]
    exact .copied hplain ih

/-- The scan has one result, and substitution gives it. -/
theorem scans_iff : scope.Scans word result ↔ result = scope.substitute word := by
  constructor
  · exact Scans.result_eq
  · rintro rfl
    exact scans_substitute scope word

/-! ## One reference after the other -/

/-- A character where no reference begins is copied in front. -/
theorem Replaces.cons (hc : ¬ Text.HasReference (c :: rest)) (h : scope.Replaces rest result) :
    scope.Replaces (c :: rest) (c :: result) := by
  cases h with
  | none plain =>
    refine .none fun front back hsplit => ?_
    cases front with
    | nil =>
      obtain rfl : c :: rest = back := hsplit
      exact hc
    | cons d front => exact plain front back (List.cons.inj hsplit).2
  | @first before text name behind result earliest longest next =>
    have hearliest : ∀ front back, c :: before = front ++ back → back ≠ [] →
        ¬ Text.HasReference (back ++ text) := by
      intro front back hsplit hne
      cases front with
      | nil =>
        obtain rfl : c :: before = back := hsplit
        exact hc
      | cons d front => exact earliest front back (List.cons.inj hsplit).2 hne
    exact Replaces.first hearliest longest next

/-- Copying what stands before the first reference is copying its characters. -/
theorem Replaces.result_eq (h : scope.Replaces word result) : result = scope.substitute word := by
  induction h with
  | @none text plain =>
    induction text with
    | nil => exact (substitute_nil scope).symm
    | cons c rest ih =>
      rw [substitute_cons (plain [] _ rfl)]
      exact congrArg _ (ih fun front back hsplit => plain (c :: front) back (congrArg _ hsplit))
  | @first before text name rest result earliest longest _ ih =>
    induction before with
    | nil => rw [List.nil_append, List.nil_append, substitute_of_longestReference longest, ih]
    | cons c before ihb =>
      have hplain : ¬ Text.HasReference (c :: (before ++ text)) :=
        earliest [] (c :: before) rfl (List.cons_ne_nil _ _)
      rw [List.cons_append, List.cons_append, substitute_cons hplain, ← ihb]
      exact fun front back hsplit hne => earliest (c :: front) back (congrArg _ hsplit) hne

theorem Scans.replaces (h : scope.Scans word result) : scope.Replaces word result := by
  induction h with
  | done =>
    refine .none fun front back hsplit => ?_
    rw [(List.append_eq_nil_iff.1 hsplit.symm).2]
    exact Text.not_hasReference_nil
  | copied plain _ ih => exact ih.cons plain
  | @replaced text _ _ _ longest _ ih =>
    have hearliest : ∀ front back, [] = front ++ back → back ≠ [] →
        ¬ Text.HasReference (back ++ text) := fun front back hsplit hne =>
      absurd (List.append_eq_nil_iff.1 hsplit.symm).2 hne
    exact Replaces.first hearliest longest ih

/-- Replacing reference by reference has one result, and substitution gives it. -/
theorem replaces_iff : scope.Replaces word result ↔ result = scope.substitute word := by
  constructor
  · exact Replaces.result_eq
  · rintro rfl
    exact (scans_substitute scope word).replaces

/-! ## Cutting a text -/

theorem Scans.append {front back result' : Text} (hfront : scope.Scans front result)
    (hcut : ∀ c ∈ back.head?, isNameChar c = false) (hback : scope.Scans back result') :
    scope.Scans (front ++ back) (result ++ result') := by
  induction hfront with
  | done => exact hback
  | copied plain _ ih =>
    refine .copied (fun hreference => plain ?_) ih
    exact (Text.hasReference_append hcut (List.cons_ne_nil _ _)).1 hreference
  | replaced longest _ ih =>
    rw [List.append_assoc]
    exact .replaced (longest.append hcut) ih

/-- No reference stands across a place where a name could not go on. -/
theorem substitute_append {front back : Text} (h : ∀ c ∈ back.head?, isNameChar c = false) :
    scope.substitute (front ++ back) = scope.substitute front ++ scope.substitute back :=
  ((scans_substitute scope front).append h (scans_substitute scope back)).result_eq.symm

/-- Substitution is one pass from left to right.  It copies every character, except that it takes the
longest name wherever a dollar sign stands before one and puts the value of the name in the place of
both: the exported value, or else the local one, or else nothing.  The same comes of replacing the
first reference of a text and going on behind it, as often as there is one.  So a text may be cut where
a name could not go on, and the results of its parts are put together. -/
theorem substitute_single_pass (scope : Scope) :
    (∀ word result, scope.Scans word result ↔ result = scope.substitute word) ∧
    (∀ word result, scope.Replaces word result ↔ result = scope.substitute word) ∧
    ∀ front back : Text, (∀ c ∈ back.head?, isNameChar c = false) →
      scope.substitute (front ++ back) = scope.substitute front ++ scope.substitute back :=
  ⟨fun _ _ => scans_iff, fun _ _ => replaces_iff, fun _ _ => substitute_append⟩

/-- `$AB` is not `$A`, the value of `$A` is not looked at again, and no name goes on with a letter
outside ASCII. -/
theorem substitute_single_pass_adjacent :
    let scope : Scope :=
      { exported := ⟨[(['A'], "$B".toList)]⟩, locals := ⟨[(['A'], ['x']), (['B'], ['b'])]⟩ }
    let front : Text := "é$$A$AB$B".toList
    let back : Text := "é$1$".toList
    scope.substitute (front ++ back) = scope.substitute front ++ scope.substitute back ∧
      scope.substitute (front ++ back) = "é$$Bbé$1$".toList := by
  intro scope front back
  refine ⟨(substitute_single_pass scope).2.2 front back ?_, by decide +kernel⟩
  rintro _ ⟨⟩
  decide

end Scope

end LineShell
