import LineShell.Text.Words

/-!
# Reading arguments

Builtins and the program itself read their arguments by one grammar.  A `Grammar` says which
flags and valued options there are and how many operands are taken; `Grammar.read` goes through
the arguments from left to right and stops at the first fault.

Two words are special in every grammar.  `--help` and `help` ask for the help text, so the plain
word `help` never arrives as an operand, and `--` makes all later arguments operands.
-/

namespace LineShell

/-- An option that takes the argument behind it as its value. -/
structure ValuedOption where
  name : Text
  /-- The fault of a value that the option does not take. -/
  fault? : Text → Option Text

inductive Operands where
  | none
  /-- Exactly one, known by a name. -/
  | required (name : Text)
  | optional
  /-- Any number.  From the first one on, everything is an operand. -/
  | many
  deriving DecidableEq, Repr

structure Grammar where
  /-- The answer to a request for help. -/
  help : Text
  /-- The spellings of the flags, which take no value and may be repeated. -/
  flags : List Text := []
  options : List ValuedOption := []
  operands : Operands := .none

/-- Why arguments are refused. -/
inductive ArgumentFault where
  /-- No flag, option or free operand takes this argument. -/
  | unrecognized (argument : Text)
  /-- A flag or option follows a request for help. -/
  | behindHelp
  | missingOperand (name : Text)
  /-- The last argument is an option without its value. -/
  | missingValue (option : Text)
  | badValue (option value reason : Text)
  deriving DecidableEq, Repr

def ArgumentFault.message : ArgumentFault → Text
  | unrecognized argument => "Unrecognized argument: ".toList ++ argument ++ ['\n']
  | behindHelp => "Trailing arguments are not allowed after `help`.".toList
  | missingOperand name =>
    "Required positional arguments not provided:\n    ".toList ++ name ++ ['\n']
  | missingValue option => "No value provided for option '".toList ++ option ++ "'.\n".toList
  | badValue option value reason =>
    "Error parsing option '".toList ++ option ++ "' with value '".toList ++ value ++
      "': ".toList ++ reason ++ ['\n']

structure Given where
  flags : List Text := []
  options : List (Text × Text) := []
  operands : List Text := []
  deriving DecidableEq, Repr

/-- How far a list of arguments has been read. -/
structure ReadingState where
  given : Given := {}
  helpWanted : Bool := false
  /-- Whether only operands may follow. -/
  operandsOnly : Bool := false
  deriving DecidableEq, Repr

namespace Grammar

def helpWords : List Text := ["--help".toList, "help".toList]

/-- The word behind which everything is an operand. -/
def endOfOptions : Text := ['-', '-']

/-- The reason for which the second occurrence of an option is refused. -/
def duplicateReason : Text := "duplicate values provided".toList

/-- Whether one more operand can be taken. -/
def hasRoom (grammar : Grammar) (given : Given) : Bool :=
  match grammar.operands with
  | .none => false
  | .required _ | .optional => given.operands.isEmpty
  | .many => true

def takeOperand (grammar : Grammar) (state : ReadingState) (argument : Text) :
    Except ArgumentFault ReadingState :=
  if grammar.hasRoom state.given then
    .ok { state with
      given := { state.given with operands := state.given.operands ++ [argument] }
      operandsOnly := state.operandsOnly || grammar.operands = .many }
  else .error (.unrecognized argument)

/-- Takes the value of an option.  An option may be given once. -/
def takeValue (state : ReadingState) (option : ValuedOption) (value : Text) :
    Except ArgumentFault ReadingState :=
  if state.given.options.any (·.1 == option.name) then
    .error (.badValue option.name value duplicateReason)
  else
    match option.fault? value with
    | some reason => .error (.badValue option.name value reason)
    | none =>
      .ok { state with
        given := { state.given with options := state.given.options ++ [(option.name, value)] } }

def readFrom (grammar : Grammar) : ReadingState → List Text → Except ArgumentFault ReadingState
  | state, [] => .ok state
  | state, argument :: rest =>
    if !state.operandsOnly && helpWords.contains argument then
      grammar.readFrom { state with helpWanted := true } rest
    else if !state.operandsOnly && argument.head? == some '-' then
      if argument = endOfOptions then
        grammar.readFrom { state with operandsOnly := true } rest
      else if state.helpWanted then .error .behindHelp
      else if grammar.flags.contains argument then
        grammar.readFrom
          { state with given := { state.given with flags := state.given.flags ++ [argument] } } rest
      else
        match grammar.options.find? (·.name == argument) with
        | none => .error (.unrecognized argument)
        | some option =>
          match rest with
          | [] => .error (.missingValue argument)
          | value :: rest =>
            match takeValue state option value with
            | .error fault => .error fault
            | .ok state => grammar.readFrom state rest
    else
      match grammar.takeOperand state argument with
      | .error fault => .error fault
      | .ok state => grammar.readFrom state rest

/-- Reads the arguments of a command.  The answer is `none` if help was asked for. -/
def read (grammar : Grammar) (arguments : List Text) : Except ArgumentFault (Option Given) :=
  match grammar.readFrom {} arguments with
  | .error fault => .error fault
  | .ok state =>
    if state.helpWanted then .ok none
    else
      match grammar.operands with
      | .required name =>
        if state.given.operands.isEmpty then .error (.missingOperand name)
        else .ok (some state.given)
      | _ => .ok (some state.given)

end Grammar

end LineShell
