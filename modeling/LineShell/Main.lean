import LineShell.FileStore.Setup
import LineShell.ShellProcess

/-!
# The command line

The program runs a shell in a file store of its own: a home directory, two devices and the
installed programs.  An operand that names a file of the machine is copied into the home
directory first, so a script can be given as an argument.  Input is read before the shell starts,
and what the shell wrote is printed after its end.
-/

namespace LineShell

/-- Where the programs are installed. -/
def programDirectory : Text := "/bin".toList

/-- Where the shell starts. -/
def homeDirectory : Text := "/home".toList

/-- The variables that the program's shell inherits, as strings. -/
def startVariables : List Text :=
  [Variables.definition Program.searchVariable programDirectory]

/-- The file store of the program's shell. -/
def startStore : FileStore :=
  FileStore.initial (Path.ofText programDirectory) (Path.ofText homeDirectory)

/-- Copies a file of the machine into the store, if there is one of that name. -/
def copyFile (store : FileStore) (name : String) : IO FileStore := do
  try
    let content ← IO.FS.readBinFile name
    let path := Path.join (Path.ofText homeDirectory) (Path.ofText name.toList)
    return store.install path (.file ⟨content⟩ .ofNewFile)
  catch _ => return store

/-- Executes line after line until the process ends. -/
partial def runToEnd : Progress → IO Exit
  | .ended result => return result
  | .running process => runToEnd process.step

end LineShell

open LineShell in
def main (arguments : List String) : IO UInt32 := do
  let input ← (← IO.getStdin).readBinToEnd
  let store ← arguments.foldlM copyFile startStore
  let world : World := { store, console := { kind := .inherited, input := input.toList } }
  let result ← runToEnd <|
    ShellProcess.start (arguments.map String.toList) startVariables
      (FileStore.spelled (Path.ofText homeDirectory)) world
  (← IO.getStdout).write result.world.console.output.bytes.toByteArray
  (← IO.getStderr).write result.world.console.diagnostics.bytes.toByteArray
  return UInt32.ofNat result.code
