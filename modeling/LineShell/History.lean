import LineShell.Builtin.Name
import LineShell.Text.Words

/-!
# Command history

The history is a bounded list of command lines, oldest first.  Entries are numbered from 1 in
that order, so the newest one has the highest number.  Lines that run a builtin are not kept,
and neither is a line equal to the newest entry.
-/

namespace LineShell

/-- The recorded command lines of a session. -/
structure History where
  /-- How many entries are kept. -/
  capacity : Nat
  /-- The recorded lines, oldest first. -/
  entries : List Text := []
  deriving DecidableEq, Repr

namespace History

/-- The capacity of a new history. -/
def defaultCapacity : Nat := 5

/-- The greatest capacity that can be asked for. -/
def maxCapacity : Nat := 100

def ofCapacity (capacity : Nat) : History := { capacity }

/-- A history without entries and with the default capacity. -/
def new : History := ofCapacity defaultCapacity

def size (h : History) : Nat := h.entries.length

def isEmpty (h : History) : Bool := h.entries.isEmpty

/-- The entries with their numbers. -/
def numbered (h : History) : List (Nat × Text) :=
  h.entries.mapIdx fun i entry => (i + 1, entry)

def get? (h : History) : Nat → Option Text
  | 0 => none
  | i + 1 => h.entries[i]?

/-- Whether a command line is kept: it is not blank, its program is no builtin, there is room for
entries at all, and it differs from the newest one. -/
def accepts (h : History) (command program : Text) : Bool :=
  !command.isEmpty && h.capacity != 0 && !Builtin.isName program &&
    h.entries.getLast? != some command

/-- Adds a line at the end, in place of the oldest one when the history is full. -/
def push (h : History) (command : Text) : History :=
  let kept := if h.entries.length = h.capacity then h.entries.drop 1 else h.entries
  { h with entries := kept ++ [command] }

/-- Records a command line without the blanks around it.  `program` is the name of the command
after substitution.  The flag says whether the line was kept. -/
def record (h : History) (command program : Text) : Bool × History :=
  let command := Text.trim command
  if h.accepts command program then (true, h.push command) else (false, h)

inductive ResizeFault where
  | tooLarge (capacity : Nat)
  deriving DecidableEq, Repr

def ResizeFault.message : ResizeFault → Text
  | .tooLarge capacity =>
    "invalid history size ".toList ++ Text.ofNat capacity ++ " (must be between 0 and ".toList ++
      Text.ofNat maxCapacity ++ ")".toList

/-- Changes the capacity and drops the oldest entries that no longer fit. -/
def resize (h : History) (capacity : Nat) : Except ResizeFault History :=
  if maxCapacity < capacity then .error (.tooLarge capacity)
  else .ok { capacity, entries := h.entries.drop (h.entries.length - capacity) }

end History

end LineShell
