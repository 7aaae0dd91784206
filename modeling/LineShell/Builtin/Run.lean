import LineShell.Builtin.Usage
import LineShell.Program.Search
import LineShell.State
import LineShell.Text.Numeral

/-!
# What the builtins do

A builtin acts on the session, looks at the file store, and writes to the outputs of its command.
The outputs are given as actions on the world, so a builtin works with any outputs, also with
such as fail, and a write can never touch the session.

Every builtin checks and writes before it changes the session.  Therefore a builtin that fails,
for whatever reason, leaves the session as it was.
-/

namespace LineShell

structure Outputs where
  stdout : Bytes → WorldAction IoError Unit
  stderr : Bytes → WorldAction IoError Unit

/-- The outputs that write to the streams of a command. -/
def Outputs.ofStreams (streams : Streams) : Outputs :=
  ⟨WorldAction.write streams.stdout, WorldAction.write streams.stderr⟩

inductive BuiltinError where
  | cdUnreachable (target : Text) (cause : IoError)
  | cdNotDirectory (target : Text)
  | noAssignment (assignment : Text)
  | invalidName (builtin : Builtin) (name : Text)
  | invalidSize (operand : Text)
  | refusedSize (fault : History.ResizeFault)
  | missingSize
  | invalidIndex (operand : Text)
  | noEntry (index : Nat)
  | unexpectedOperand (operand : Text)
  | unlistable (directory : Path) (cause : IoError)
  | invalidCode (operand : Text)
  | output (cause : IoError)
  deriving DecidableEq, Repr

namespace BuiltinError

/-- A word in the quotes of a diagnostic. -/
def quoted (word : Text) : Text := "`".toList ++ word ++ "'".toList

def message : BuiltinError → Text
  | cdUnreachable target cause => "cd: ".toList ++ target ++ ": ".toList ++ cause.message
  | cdNotDirectory target => "cd: ".toList ++ target ++ ": Not a directory".toList
  | noAssignment assignment =>
    "export: ".toList ++ quoted assignment ++ ": expected NAME=VALUE".toList
  | invalidName builtin name =>
    builtin.name ++ ": ".toList ++ quoted name ++ ": not a valid identifier".toList
  | invalidSize operand => "history: invalid size ".toList ++ quoted operand
  | refusedSize fault => "history: ".toList ++ fault.message
  | missingSize => "history: missing size for ".toList ++ quoted "history set".toList
  | invalidIndex operand => "history: invalid index ".toList ++ quoted operand
  | noEntry index => "history: ".toList ++ Text.ofNat index ++ ": no such entry".toList
  | unexpectedOperand operand => "history: unexpected argument ".toList ++ quoted operand
  | unlistable directory cause =>
    "ls: ".toList ++ directory.toText ++ ": ".toList ++ cause.message
  | invalidCode operand => "exit: ".toList ++ operand ++ ": numeric argument required".toList
  | output cause => cause.message

end BuiltinError

abbrev BuiltinAction := Action BuiltinError

namespace Builtin

def outputLine (text : Text) : Bytes := Utf8.encode (text ++ ['\n'])

/-- Writes to an output of the builtin. -/
def emit (output : Bytes → WorldAction IoError Unit) (data : Bytes) : BuiltinAction Unit :=
  State.onWorld .output (output data)

/-- Lets a check of the current state decide how to go on. -/
def check {α : Type} (test : State → Except BuiltinError α) : BuiltinAction α := fun state =>
  match test state with
  | .ok a => .ok a state
  | .error e => .error e state

/-- The name and the value of an assignment, which its first equals sign separates. -/
def splitAssignment (assignment : Text) : Option (Text × Text) :=
  match assignment.dropWhile (· != '=') with
  | [] => none
  | _ :: value => some (assignment.takeWhile (· != '='), value)

/-! ## Working directory -/

/-- The name of the variable that shows the working directory to programs. -/
def directoryVariable : Text := ['P', 'W', 'D']

/-- The directory that `cd` leads to.  Directories have no permissions here, so that each of them can
also be read and needs no further check. -/
def cdDestination (target : Text) (state : State) : Except BuiltinError Location := do
  let path := state.session.environment.resolve target
  let location ← (state.world.store.canonicalize path).mapError (.cdUnreachable target)
  if state.world.store.isDirectory location = false then .error (.cdNotDirectory target)
  .ok location

def enter (location : Location) (session : Session) : Session :=
  let path := FileStore.pathOf location
  { session with
    environment :=
      { session.environment.withVariable directoryVariable path.toText with directory := path } }

def runCd (target : Text) : BuiltinAction Status := do
  let location ← check (cdDestination target)
  modifySession (enter location)
  return 0

def runPwd (outputs : Outputs) : BuiltinAction Status := do
  let state ← get
  emit outputs.stdout (outputLine state.session.environment.directory.toText)
  return 0

/-- The entries that `ls` shows: those whose name does not start with a dot. -/
def visibleNames (state : State) : Except BuiltinError (List Name) := do
  let directory := state.session.environment.directory
  let location ← (state.world.store.lookUp directory).mapError (.unlistable directory)
  if state.world.store.isDirectory location = false then
    .error (.unlistable directory (.system .notDirectory))
  .ok ((state.world.store.namesIn location).filter (·.head? != some 46))

def runLs (outputs : Outputs) : BuiltinAction Status := do
  let names ← check visibleNames
  names.forM fun name => emit outputs.stdout (outputLine (Utf8.decodeLossy name))
  return 0

/-! ## Variables -/

/-- Checks the name of a variable that a builtin is about to set. -/
def checkName (builtin : Builtin) (name : Text) : Except BuiltinError Unit :=
  if isValidName name then .ok () else .error (.invalidName builtin name)

def exportAssignment (assignment : Text) : Except BuiltinError (Text × Text) := do
  match splitAssignment assignment with
  | none => .error (.noAssignment assignment)
  | some (name, value) =>
    checkName .exportVariable name
    .ok (name, value)

/-- Whether an assignment takes the last usable directory out of the search path. -/
def breaksSearchPath (name value : Text) (state : State) : Bool :=
  name == Program.searchVariable &&
    !Program.isUsableSearchPath state.world.store state.session.environment value

/-- The warning about a search path that no program can be found in. -/
def searchPathWarning (value : Text) : Bytes :=
  ShellError.report ("export: invalid PATH value ".toList ++ BuiltinError.quoted value)

def runExport (outputs : Outputs) (assignment : Text) : BuiltinAction Status := do
  let (name, value) ← check fun _ => exportAssignment assignment
  let broken := breaksSearchPath name value (← get)
  if broken then emit outputs.stderr (searchPathWarning value)
  modifySession fun session =>
    { session with
      environment := session.environment.withVariable name value
      pathUnusable := session.pathUnusable || broken }
  return 0

/-- What `local` is about to set.  Without an equals sign the value is empty. -/
def localAssignment (assignment : Text) : Except BuiltinError (Text × Text) := do
  let (name, value) := (splitAssignment assignment).getD (assignment, [])
  checkName .localVariable name
  .ok (name, value)

def runLocal (assignment : Text) : BuiltinAction Status := do
  let (name, value) ← check fun _ => localAssignment assignment
  modifySession fun session => { session with locals := session.locals.set name value }
  return 0

def runVars (outputs : Outputs) : BuiltinAction Status := do
  let state ← get
  state.session.locals.toList.forM fun (name, value) =>
    emit outputs.stdout (outputLine (name ++ '=' :: value))
  return 0

/-! ## History -/

def listHistory (outputs : Outputs) : BuiltinAction Status := do
  let state ← get
  state.session.history.numbered.forM fun (index, entry) =>
    emit outputs.stdout (outputLine (Text.ofNat index ++ ") ".toList ++ entry))
  return 0

/-- The history with the size that an operand asks for. -/
def resizedHistory (operand : Text) (state : State) : Except BuiltinError History :=
  match Numeral.readSize operand with
  | .error _ => .error (.invalidSize operand)
  | .ok size => (state.session.history.resize size).mapError .refusedSize

def resizeHistory (operand : Text) : BuiltinAction Status := do
  let history ← check (resizedHistory operand)
  modifySession fun session => { session with history }
  return 0

def historyEntry (operand : Text) (state : State) : Except BuiltinError Text :=
  match Numeral.readSize operand with
  | .error _ => .error (.invalidIndex operand)
  | .ok index =>
    match state.session.history.get? index with
    | none => .error (.noEntry index)
    | some entry => .ok entry

/-- Shows an entry and queues it to be run again. -/
def replayHistory (outputs : Outputs) (operand : Text) : BuiltinAction Status := do
  let entry ← check (historyEntry operand)
  emit outputs.stdout (outputLine entry)
  modifySession fun session => { session with pendingReplay := some entry }
  return 0

/-- The word that makes `history` change its size. -/
def setWord : Text := ['s', 'e', 't']

def runHistory (outputs : Outputs) : List Text → BuiltinAction Status
  | [] => listHistory outputs
  | [operand] =>
    if operand = setWord then check fun _ => .error .missingSize
    else replayHistory outputs operand
  | first :: second :: rest =>
    if first = setWord then
      match rest with
      | [] => resizeHistory second
      | extra :: _ => check fun _ => .error (.unexpectedOperand extra)
    else check fun _ => .error (.unexpectedOperand second)

/-! ## End of the session -/

/-- The exit code that `exit` was given, or that of the last command. -/
def exitStatus (code : Option Text) (state : State) : Except BuiltinError Status :=
  match code with
  | none => .ok state.session.lastStatus
  | some operand => (Numeral.readCode operand).mapError fun _ => .invalidCode operand

def runExit (code : Option Text) : BuiltinAction Status := do
  let status ← check (exitStatus code)
  modifySession fun session => { session with exitRequested := true }
  return status

end Builtin

def Call.run (outputs : Outputs) : Call → BuiltinAction Status
  | cd target => Builtin.runCd target
  | pwd => Builtin.runPwd outputs
  | exportVariable assignment => Builtin.runExport outputs assignment
  | localVariable assignment => Builtin.runLocal assignment
  | vars => Builtin.runVars outputs
  | history operands => Builtin.runHistory outputs operands
  | ls => Builtin.runLs outputs
  | exit code => Builtin.runExit code

end LineShell
