import LineShell.Text.Blank

/-!
# Words, trimming and comments

A line is cut at its comment, trimmed, and split into words.  There is no quoting, so a word is
a maximal run of characters that are no blanks.

`words_append_blank` is the law that makes words local: a blank cuts a text into two texts whose
words do not interact.
-/

namespace LineShell.Text

/-- The maximal runs of characters that are no blanks, in order. -/
def words (text : Text) : List Text :=
  (text.splitOnP isBlank).filter (!·.isEmpty)

theorem words_nil : words [] = [] := by decide

/-- A blank cuts a text into two texts whose words do not interact. -/
theorem words_append_blank {c : Char} (h : isBlank c = true) (left right : Text) :
    words (left ++ c :: right) = words left ++ words right := by
  simp [words, List.splitOnP_append_cons left right h]

theorem ne_nil_of_mem_words {word text : Text} (h : word ∈ words text) : word ≠ [] := by
  have := (List.mem_filter.1 h).2
  simpa using this

def trimStart (text : Text) : Text := text.dropWhile isBlank

def trimEnd (text : Text) : Text := (text.reverse.dropWhile isBlank).reverse

def trim (text : Text) : Text := trimEnd (trimStart text)

/-- What stands before the first `#` that starts a word.  The flag is true where the next
character would be the first of a word. -/
def beforeComment : Bool → Text → Text
  | _, [] => []
  | atWordStart, c :: rest =>
    if c = '#' ∧ atWordStart = true then [] else c :: beforeComment (isBlank c) rest

/-- The line up to its comment.  A `#` inside a word starts none. -/
def stripComment (line : Text) : Text := beforeComment true line

/-- The part of a line that is executed: without its comment and without blanks around it. -/
def significant (line : Text) : Text := trim (stripComment line)

end LineShell.Text
