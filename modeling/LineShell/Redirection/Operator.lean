import LineShell.Text.Blank

/-!
# Redirection operators

An operator names the streams it redirects and how their file is opened.  The symbols overlap
(`&>>` contains `>>` contains `>`), so recognition goes through `Operator.table`, which lists
every symbol before the symbols that it begins with or that it contains; the first match is
then the longest one.

The operator `2>` is special: its digit could be the end of a word, so it counts only where a
word starts.

Recognition is stated over any alphabet whose elements have a character view.  The shell scans
characters, for which the view is the identity; bytes of an encoded line can be scanned by the
same definition.
-/

namespace LineShell.Redirection

/-- How a file that receives output is opened. -/
inductive Mode where
  /-- Emptied first. -/
  | truncate
  /-- Kept, with every write going to its end. -/
  | append
  deriving DecidableEq, Repr

inductive Operator where
  /-- `<` reads standard input from a file. -/
  | input
  /-- `>` and `>>` send standard output to a file. -/
  | output (mode : Mode)
  /-- `2>` sends standard error to a file. -/
  | error
  /-- `&>` and `&>>` send both outputs to one file. -/
  | combined (mode : Mode)
  deriving DecidableEq, Repr

namespace Operator

def symbol : Operator → Text
  | input => ['<']
  | output .truncate => ['>']
  | output .append => ['>', '>']
  | error => ['2', '>']
  | combined .truncate => ['&', '>']
  | combined .append => ['&', '>', '>']

/-- All operators in the order in which they are tried. -/
def table : List Operator :=
  [combined .append, combined .truncate, error, output .append, output .truncate, input]

theorem mem_table (operator : Operator) : operator ∈ table := by
  rcases operator with _ | (_ | _) | _ | (_ | _) <;> decide

theorem symbol_ne_nil (operator : Operator) : operator.symbol ≠ [] := by
  rcases operator with _ | (_ | _) | _ | (_ | _) <;> decide

theorem symbol_length_pos (operator : Operator) : 0 < operator.symbol.length :=
  List.length_pos_iff.2 operator.symbol_ne_nil

/-- The symbols tell the operators apart. -/
theorem symbol_injective {a b : Operator} (h : a.symbol = b.symbol) : a = b := by
  rcases a with _ | (_ | _) | _ | (_ | _) <;> rcases b with _ | (_ | _) | _ | (_ | _) <;>
    revert h <;> decide

variable {α : Type}

/-- Whether the operator is written at the beginning of `line`.  The flag says whether a word
may start there. -/
def startsAt (view : α → Char) (atWordStart : Bool) (line : List α) (operator : Operator) : Bool :=
  (operator != error || atWordStart) &&
    operator.symbol == (line.take operator.symbol.length).map view

/-- The operator written at the beginning of `line`, the longest if there are several. -/
def recognize (view : α → Char) (atWordStart : Bool) (line : List α) : Option Operator :=
  table.find? (startsAt view atWordStart line)

theorem startsAt_of_recognize {view : α → Char} {atWordStart : Bool} {line : List α}
    {operator : Operator} (h : recognize view atWordStart line = some operator) :
    startsAt view atWordStart line operator = true :=
  List.find?_some h

/-- What is recognized is written at the beginning of the line. -/
theorem map_take_of_recognize {view : α → Char} {atWordStart : Bool} {line : List α}
    {operator : Operator} (h : recognize view atWordStart line = some operator) :
    (line.take operator.symbol.length).map view = operator.symbol :=
  (beq_iff_eq.1 (Bool.and_eq_true_iff.1 (startsAt_of_recognize h)).2).symm

theorem ne_nil_of_recognize {view : α → Char} {atWordStart : Bool} {line : List α}
    {operator : Operator} (h : recognize view atWordStart line = some operator) : line ≠ [] := by
  rintro rfl
  have := startsAt_of_recognize h
  simp [startsAt, symbol_ne_nil operator] at this

end Operator

end LineShell.Redirection
