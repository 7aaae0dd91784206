import LineShell.Shell
import LineShell.Text.Lines

/-!
# Batches

A batch is a byte stream of lines, executed in order and recorded.  It ends with its last line or
with the line that requests the exit, and fails at the first line that is no UTF-8; the lines
before that one have been executed.
-/

namespace LineShell.Shell

/-- How a batch ended. -/
structure BatchResult where
  outcome : Except IoError Status
  shell : Shell

def runLines (shell : Shell) : List Bytes → BatchResult
  | [] => { outcome := .ok shell.state.session.finalStatus, shell }
  | line :: rest =>
    match Utf8.decode? line with
    | none => { outcome := .error .notUtf8, shell }
    | some text =>
      let shell := (shell.executeLine text true).shell
      if shell.state.session.exitRequested then
        { outcome := .ok shell.state.session.finalStatus, shell }
      else shell.runLines rest

/-- Executes the lines of a byte stream. -/
def runBatch (shell : Shell) (bytes : Bytes) : BatchResult :=
  shell.runLines (Lines.split bytes)

end LineShell.Shell
