import LineShell.Text.Blank

/-!
# Names of the builtins

Eight commands run inside the shell.  Their names are kept twice: each builtin has its own `name`, by
which a command is dispatched, and the history has the list `names` of words that it does not record.
The two agree: `isName_iff` says so of the names, and `Factory.isHandled_iff` of the commands that are
made of them.
-/

namespace LineShell

inductive Builtin where
  | cd
  | pwd
  | exportVariable
  | localVariable
  | vars
  | history
  | ls
  | exit
  deriving DecidableEq, Repr

namespace Builtin

/-- The name that calls a builtin. -/
def name : Builtin → Text
  | cd => ['c', 'd']
  | pwd => ['p', 'w', 'd']
  | exportVariable => ['e', 'x', 'p', 'o', 'r', 't']
  | localVariable => ['l', 'o', 'c', 'a', 'l']
  | vars => ['v', 'a', 'r', 's']
  | history => ['h', 'i', 's', 't', 'o', 'r', 'y']
  | ls => ['l', 's']
  | exit => ['e', 'x', 'i', 't']

/-- All builtins in the order in which commands are looked up. -/
def all : List Builtin := [cd, pwd, exportVariable, localVariable, vars, history, ls, exit]

theorem mem_all (builtin : Builtin) : builtin ∈ all := by
  cases builtin <;> decide

theorem name_injective {a b : Builtin} (h : a.name = b.name) : a = b := by
  cases a <;> cases b <;> revert h <;> decide

/-- The builtin that a name calls. -/
def ofName? (name : Text) : Option Builtin :=
  all.find? fun builtin => builtin.name == name

/-- The words that call no program. -/
def names : List Text :=
  ["cd".toList, "pwd".toList, "export".toList, "local".toList, "vars".toList, "history".toList,
    "ls".toList, "exit".toList]

/-- Whether a command of this name is one that the history leaves out. -/
def isName (name : Text) : Bool := names.contains name

theorem ofName?_eq_some_iff {name : Text} {builtin : Builtin} :
    ofName? name = some builtin ↔ builtin.name = name := by
  constructor
  · intro h
    simpa using List.find?_some h
  · rintro rfl
    cases builtin <;> decide

theorem names_eq : names = all.map name := by decide

/-- The list of names leaves no builtin out and has no other word. -/
theorem isName_iff {name : Text} : isName name = true ↔ ∃ builtin : Builtin, builtin.name = name := by
  rw [isName, List.contains_iff_mem, names_eq, List.mem_map]
  exact exists_congr fun builtin => and_iff_right (mem_all builtin)

end Builtin

end LineShell
