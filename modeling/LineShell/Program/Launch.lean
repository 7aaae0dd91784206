import LineShell.FileStore.Walk

/-!
# From a program file to what runs

A program file is either an installed program or a script, a file whose first line names another
program after `#!`.  Starting a script starts that program with the path of the script among its
arguments.  The named program may itself be a script; `maxNesting` bounds how often.

The system looks at the first `headSize` bytes of a file and fills them up with NULs, and the
first line must be told from those.  A line that does not end there may have lost the end of an
argument but not of the program's path: if the path could go on, the file is no script.
-/

namespace LineShell.Program

/-- The first two bytes of a script. -/
def scriptMark : Bytes := [35, 33]

/-- How many bytes of a program file are looked at. -/
def headSize : Nat := 256

/-- Blanks on the first line of a script. -/
def isScriptBlank (b : UInt8) : Bool := b == 32 || b == 9

/-- What ends the path of the named program. -/
def endsPath (b : UInt8) : Bool := isScriptBlank b || b == 0

/-- How often a script may be run by another script. -/
def maxNesting : Nat := 5

/-- The program that a script names and the one argument it may give to it. -/
structure Interpreter where
  path : Path
  argument : Option Bytes
  deriving DecidableEq, Repr

/-- The first bytes of a file, with NULs in place of those that it does not have. -/
def head (content : Bytes) : Bytes :=
  (content ++ List.replicate headSize 0).take headSize

/-- A line without the blanks at its end. -/
def trimScriptEnd (line : Bytes) : Bytes :=
  (line.reverse.dropWhile isScriptBlank).reverse

/-- The first line of a script behind its mark.  Without a line feed that ends it, it goes on to
the last byte but one, and there must be an end of the program's path. -/
def scriptLine? (rest : Bytes) : Option Bytes :=
  let text := rest.takeWhile (· != 0)
  if text.contains 10 then some (trimScriptEnd (text.takeWhile (· != 10)))
  else if (rest.dropWhile isScriptBlank).any endsPath then some (trimScriptEnd rest.dropLast)
  else none

/-- The program and the argument on the first line of a script.  The argument ends at a NUL, and
may be empty for that reason. -/
def interpreterOfLine? (line : Bytes) : Option Interpreter :=
  match line.dropWhile isScriptBlank with
  | [] => none
  | words =>
    let behind := words.dropWhile (!endsPath ·)
    some
      { path := words.takeWhile (!endsPath ·)
        argument :=
          if behind.head?.any isScriptBlank then
            some ((behind.dropWhile isScriptBlank).takeWhile (· != 0))
          else none }

/-- The interpreter that a file names, if it is a script. -/
def interpreter? (content : Bytes) : Option Interpreter :=
  if scriptMark.isPrefixOf content then
    (scriptLine? ((head content).drop scriptMark.length)).bind interpreterOfLine?
  else none

/-- What the system finds in a program file. -/
inductive Image where
  | tool (tool : Tool)
  | text (content : Bytes)
  deriving DecidableEq, Repr

/-- Opens a program file, whose path is taken from a working directory.  An empty path is that
directory, which cannot be run.  A file that is being written cannot be run either. -/
def openImage (store : FileStore) (beingWritten : List Location) (directory : Location)
    (path : Path) : Except SystemCode Image := do
  if path.isEmpty then .error .permissionDenied
  let location ← store.locateFrom directory path
  match store.find? location with
  | some (.program tool) => .ok (.tool tool)
  | some (.file content permissions) =>
    if permissions.mayExecute = false then .error .permissionDenied
    else if beingWritten.contains location then .error .programBusy
    else .ok (.text content.bytes)
  | none => .error .noSuchEntry
  | some _ => .error .permissionDenied

/-- An installed program with its arguments, its own name first. -/
structure Launch where
  tool : Tool
  arguments : List Bytes
  deriving DecidableEq, Repr

/-- Follows scripts to an installed program, with at most `nesting` scripts behind each other.
The program that one script too many names is opened all the same. -/
def launch (store : FileStore) (beingWritten : List Location) (directory : Location)
    (nesting : Nat) (path : Path) (arguments : List Bytes) : Except SystemCode Launch := do
  match ← openImage store beingWritten directory path with
  | .tool tool => .ok { tool, arguments }
  | .text content =>
    match interpreter? content with
    | none => .error .notExecutable
    | some interpreter =>
      match nesting with
      | 0 =>
        let _ ← openImage store beingWritten directory interpreter.path
        .error .tooManyLinks
      | nesting + 1 =>
        launch store beingWritten directory nesting interpreter.path
          (interpreter.path :: interpreter.argument.toList ++ path :: arguments.drop 1)

end LineShell.Program
