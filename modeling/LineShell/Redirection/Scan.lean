import LineShell.Redirection.Operator

/-!
# Scanning a line for redirections

`scan` cuts a line into plain text and redirections: `lead`, then for each redirection its
operator, the blanks behind it, its path, and the plain text up to the next one.  Nothing is
lost: `Scan.written_scan` puts the line together again.

A path ends at a blank or where another redirection could begin (`<`, `>`), so operators that
follow each other without blanks are told apart.  An operator may have an empty path here; that
this is a fault is decided by the reader of the result.
-/

namespace LineShell.Redirection

variable {α : Type}

/-- One redirection as it stands in a line, with the plain text behind it. -/
structure Occurrence (α : Type) where
  operator : Operator
  symbol : List α
  /-- The blanks between the symbol and the path. -/
  gap : List α
  path : List α
  /-- The plain text up to the next redirection or the end. -/
  after : List α
  deriving DecidableEq, Repr

/-- A line cut into plain text and redirections. -/
structure Scan (α : Type) where
  lead : List α
  occurrences : List (Occurrence α)
  deriving DecidableEq, Repr

/-- The stretch of a line that an occurrence covers. -/
def Occurrence.written (o : Occurrence α) : List α :=
  o.symbol ++ (o.gap ++ (o.path ++ o.after))

namespace Scan

def written (s : Scan α) : List α := s.lead ++ s.occurrences.flatMap Occurrence.written

def residual (s : Scan α) : List α := s.lead ++ s.occurrences.flatMap (·.after)

end Scan

/-- Whether a character can stand in a path. -/
def inPath (c : Char) : Bool :=
  !Text.isAsciiBlank c && c != '<' && c != '>'

theorem length_drop_symbol_lt {view : α → Char} {atWordStart : Bool} {line : List α}
    {operator : Operator} (h : Operator.recognize view atWordStart line = some operator) :
    (line.drop operator.symbol.length).length < line.length := by
  have hpos := List.length_pos_iff.2 (Operator.ne_nil_of_recognize h)
  have := operator.symbol_length_pos
  simp only [List.length_drop]
  omega

theorem length_dropWhile_le (p : α → Bool) (l : List α) : (l.dropWhile p).length ≤ l.length :=
  (List.dropWhile_suffix p).length_le

/-- Cuts a line from the left.  The flag says whether a word may start here: at the beginning of
the line and behind a blank, but not behind a path. -/
def scan (view : α → Char) (atWordStart : Bool) (line : List α) : Scan α :=
  match _h : Operator.recognize view atWordStart line with
  | some operator =>
    let rest := line.drop operator.symbol.length
    let body := rest.dropWhile (Text.isAsciiBlank ∘ view)
    let tail := scan view false (body.dropWhile (inPath ∘ view))
    { lead := []
      occurrences :=
        { operator
          symbol := line.take operator.symbol.length
          gap := rest.takeWhile (Text.isAsciiBlank ∘ view)
          path := body.takeWhile (inPath ∘ view)
          after := tail.lead } :: tail.occurrences }
  | none =>
    match line with
    | [] => ⟨[], []⟩
    | c :: rest =>
      let tail := scan view (Text.isAsciiBlank (view c)) rest
      { tail with lead := c :: tail.lead }
termination_by line.length
decreasing_by
  · exact Nat.lt_of_le_of_lt (Nat.le_trans (length_dropWhile_le ..) (length_dropWhile_le ..))
      (length_drop_symbol_lt _h)
  · simp

/-- Cutting a line loses nothing. -/
theorem Scan.written_scan (view : α → Char) (atWordStart : Bool) (line : List α) :
    (scan view atWordStart line).written = line := by
  fun_induction scan view atWordStart line with
  | case1 atWordStart line operator h rest body tail ih =>
    have ih : tail.lead ++ tail.occurrences.flatMap Occurrence.written =
        body.dropWhile (inPath ∘ view) := ih
    simp only [written, List.flatMap_cons, Occurrence.written, List.nil_append, List.append_assoc]
    rw [ih, List.takeWhile_append_dropWhile, List.takeWhile_append_dropWhile,
      List.take_append_drop]
  | case2 => rfl
  | case3 atWordStart c rest h tail ih =>
    simp only [written, List.cons_append] at ih ⊢
    rw [ih]

end LineShell.Redirection
