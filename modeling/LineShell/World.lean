import LineShell.FileStore.Open
import LineShell.Streams
import LineShell.Transcript

/-!
# The world around a session

A session acts on a `World`: the file store, the files that are open, and the console.  Open
files are known by number and each has an offset of its own, so two openings of one file write
over each other, while two streams with one number share its offset and do not.
-/

namespace LineShell

structure OpenFile where
  location : Location
  /-- Where the next read or write begins. -/
  offset : Nat := 0
  /-- Whether it was opened for writing. -/
  writing : Bool := false
  /-- Whether every write goes to the end of the file. -/
  appending : Bool := false
  deriving DecidableEq, Repr

/-- The streams that a command starts from. -/
structure Console where
  kind : ConsoleKind
  /-- What has not been read of the input. -/
  input : Bytes := []
  output : Transcript := {}
  diagnostics : Transcript := {}
  deriving DecidableEq, Repr

structure World where
  store : FileStore
  /-- The open files; a file's number is its position. -/
  openFiles : List OpenFile := []
  console : Console
  deriving DecidableEq, Repr

namespace World

/-- The world after a file was opened, and the number of that file. -/
def addOpenFile (world : World) (file : OpenFile) : Nat × World :=
  (world.openFiles.length, { world with openFiles := world.openFiles ++ [file] })

/-- Closes all files but the first ones. -/
def closeFrom (world : World) (count : Nat) : World :=
  { world with openFiles := world.openFiles.take count }

/-- The locations of the files that are open for writing. -/
def beingWritten (world : World) : List Location :=
  (world.openFiles.filter (·.writing)).map (·.location)

def seek (world : World) (number offset : Nat) : World :=
  { world with openFiles := world.openFiles.modify number fun f => { f with offset } }

/-! ## Writing -/

/-- Writes to an open file.  Nothing is written at all if there are no bytes to write. -/
def writeFile (world : World) (number : Nat) (data : Bytes) : Except IoError World :=
  match world.openFiles[number]? with
  | none => .ok world
  | some file =>
    match world.store.find? file.location with
    | some (.file content permissions) =>
      if data.isEmpty then .ok world
      else
        let offset := if file.appending then content.size else file.offset
        let content :=
          if file.appending then content.append data else content.overwrite offset data
        let world := { world with
          store := world.store.put file.location (.file content permissions) }
        .ok (world.seek number (offset + data.length))
    | some .fullDevice => if data.isEmpty then .ok world else .error (.system .noSpaceLeft)
    | _ => .ok world

/-- Writes to a sink.  Only a file can refuse what is written: the console takes everything. -/
def write (world : World) (sink : Sink) (data : Bytes) : Except IoError World :=
  match sink with
  | .output =>
    .ok { world with
      console := { world.console with output := world.console.output.append data } }
  | .diagnostics =>
    .ok { world with
      console := { world.console with diagnostics := world.console.diagnostics.append data } }
  | .nothing => .ok world
  | .file number => world.writeFile number data

/-- Writes to a sink and goes on if that fails. -/
def tryWrite (world : World) (sink : Sink) (data : Bytes) : World :=
  match world.write sink data with
  | .ok world => world
  | .error _ => world

/-! ## Reading -/

/-- What an open file still has to offer, at most `limit` bytes of it if there is a limit. -/
def restOfFile (world : World) (file : OpenFile) (limit : Option Nat) : Except IoError Bytes :=
  match world.store.find? file.location with
  | some (.file content _) => .ok (content.slice file.offset (limit.getD content.size))
  | some .directory => .error (.system .isDirectory)
  | _ => .ok []

/-- Reads at most `limit` bytes from a source, all there are if no limit is given. -/
def read (world : World) (source : Source) (limit : Option Nat) : Except IoError (Bytes × World) :=
  match source with
  | .console =>
    let input := world.console.input
    let data := input.take (limit.getD input.length)
    .ok (data, { world with
      console := { world.console with input := input.drop data.length } })
  | .nothing => .ok ([], world)
  | .file number =>
    match world.openFiles[number]? with
    | none => .ok ([], world)
    | some file => do
      let data ← world.restOfFile file limit
      .ok (data, world.seek number (file.offset + data.length))

/-! ## Opening -/

def openInput (world : World) (path : Path) : Except IoError (Source × World) := do
  let location ← world.store.openForReading path
  let (number, world) := world.addOpenFile { location }
  .ok (.file number, world)

/-- Opens a file for writing, which may create it or empty it. -/
def openOutput (world : World) (path : Path) (mode : Redirection.Mode) :
    Except IoError (Sink × World) := do
  let (location, store) ← world.store.openForWriting path mode
  let (number, world) := { world with store }.addOpenFile
    { location, writing := true, appending := decide (mode = Redirection.Mode.append) }
  .ok (.file number, world)

end World

end LineShell
