import LineShell.Variables

/-!
# Substitution

A word is cut into `Piece`s: characters, and references `$NAME` with the longest name that can be
read there.  A dollar sign without a name behind it is a character like any other.  Substitution
replaces each reference by its value and leaves the rest alone.  It is one pass: values are not
looked at again, so a value that contains a dollar sign or a blank changes nothing about the
structure of the line.
-/

namespace LineShell

inductive Piece where
  | literal (c : Char)
  | reference (name : Text)
  deriving DecidableEq, Repr

def startsName : Text → Bool
  | [] => false
  | c :: _ => isNameStart c

/-- The parts of a word from left to right. -/
def pieces (word : Text) : List Piece :=
  match word with
  | [] => []
  | c :: rest =>
    if c = '$' ∧ startsName rest = true then
      .reference (rest.takeWhile isNameChar) :: pieces (rest.dropWhile isNameChar)
    else
      .literal c :: pieces rest
termination_by word.length
decreasing_by
  · exact Nat.lt_succ_of_le (List.dropWhile_suffix _).length_le
  · simp

namespace Piece

/-- How a piece is written in a word. -/
def written : Piece → Text
  | literal c => [c]
  | reference name => '$' :: name

def isReference : Piece → Bool
  | literal _ => false
  | reference _ => true

end Piece

/-- Cutting a word into pieces loses nothing. -/
theorem flatMap_written_pieces (word : Text) : (pieces word).flatMap Piece.written = word := by
  fun_induction pieces word with
  | case1 => rfl
  | case2 c rest h ih => simp [Piece.written, ih, h.1]
  | case3 c rest h ih => simp [Piece.written, ih]

namespace Scope

/-- What a piece becomes.  A name without a value becomes nothing. -/
def expandPiece (scope : Scope) : Piece → Text
  | .literal c => [c]
  | .reference name => (scope.lookup name).getD []

/-- The word with every reference replaced by its value. -/
def substitute (scope : Scope) (word : Text) : Text :=
  (pieces word).flatMap scope.expandPiece

/-- The argument that a word becomes.  A word with a reference that comes out empty is dropped;
values are never split into several arguments. -/
def argument? (scope : Scope) (word : Text) : Option Text :=
  let value := scope.substitute word
  if (pieces word).any Piece.isReference && value.isEmpty then none else some value

/-- The arguments that the words of a line become. -/
def arguments (scope : Scope) (words : List Text) : List Text :=
  words.filterMap scope.argument?

end Scope

end LineShell
