import LineShell.OrderedMap
import LineShell.Text.Blank
import LineShell.Text.Order

/-!
# Variables

A session has two stores of variables of the same kind.  Exported variables are inherited by
every program it starts; local ones are seen by substitution only.  Where both bind a name, the
exported value is the one that counts.

A program inherits its variables as strings, of which each gives a name and a value.
-/

namespace LineShell

/-- Variables by name, in the order of their first assignment. -/
abbrev Variables := OrderedMap Text Text

def isNameStart (c : Char) : Bool := c.isAlpha || c == '_'

/-- Whether a character can stand in a name behind its first one. -/
def isNameChar (c : Char) : Bool := c.isAlphanum || c == '_'

/-- Whether a text is the name of a variable: ASCII letters, digits and underscores, with no
digit at the front. -/
def isValidName : Text → Bool
  | [] => false
  | c :: rest => isNameStart c && rest.all isNameChar

namespace Variables

/-- The variables by name, in the order of their names. -/
def sorted (store : Variables) : List (Text × Text) :=
  store.toList.mergeSort fun a b => inOrder Char.toNat a.1 b.1

/-! ## Variables as strings -/

/-- The string by which a program inherits a variable. -/
def definition (name value : Text) : Text := name ++ '=' :: value

/-- The variable that a string stands for.  Its name ends at the first equals sign, but it may
start with one.  A string without such a sign stands for none. -/
def ofDefinition? : Text → Option (Text × Text)
  | [] => none
  | c :: text =>
    match text.dropWhile (· != '=') with
    | [] => none
    | _ :: value => some (c :: text.takeWhile (· != '='), value)

/-- The variables that a list of strings stands for, in the order of the strings. -/
def inherited (strings : List Text) : List (Text × Text) := strings.filterMap ofDefinition?

/-- The variables of a program that inherits strings.  Where two give a value to one name, the
later one counts. -/
def ofStrings (strings : List Text) : Variables := OrderedMap.setAll {} (inherited strings)

end Variables

/-- The variables that a line can refer to. -/
structure Scope where
  exported : Variables
  locals : Variables
  deriving DecidableEq, Repr

/-- The value of a name: that of the exported variable, else that of the local one. -/
def Scope.lookup (scope : Scope) (name : Text) : Option Text :=
  (scope.exported.get? name).or (scope.locals.get? name)

end LineShell
