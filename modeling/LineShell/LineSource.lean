import LineShell.Text.Lines
import LineShell.World

/-!
# Lines from a source that changes

A shell process reads its lines from a source that its own commands can see: a program shares the
input of the process, and a script can be written to while it runs.  So what matters is how much
has been read when a command runs.  A `LineSource` reads in chunks of a fixed size and only when
its buffer holds no complete line.
-/

namespace LineShell

/-- Lines that are read from a source as they are needed. -/
structure LineSource where
  source : Source
  /-- What has been read and belongs to no line yet. -/
  buffer : Bytes := []
  deriving DecidableEq, Repr

namespace LineSource

/-- How many bytes are asked for at a time. -/
def chunkSize : Nat := 8192

/-- How many bytes a source still has. -/
def available (source : Source) (world : World) : Nat :=
  match world.read source none with
  | .ok (data, _) => data.length
  | .error _ => 0

/-- Whether reading goes on behind a chunk: the source has more, and the line is not at its end. -/
def goesOn (chunk : Bytes) : Bool := !chunk.isEmpty && !chunk.contains Lines.lineFeed

/-- What at most `chunks` chunks bring, up to one that ends a line or the source. -/
def readChunks (source : Source) : (chunks : Nat) → World → Except IoError (Bytes × World)
  | 0, world => .ok ([], world)
  | chunks + 1, world => do
    let (chunk, world) ← world.read source (some chunkSize)
    if goesOn chunk then
      let (more, world) ← readChunks source chunks world
      .ok (chunk ++ more, world)
    else .ok (chunk, world)

/-- What the source brings to complete a line, as far as it has one.  A chunk has at least one
byte unless the source is at its end, so no more chunks are needed than there are bytes; they are
not counted unless the first chunk does not do. -/
def readLine (source : Source) (world : World) : Except IoError (Bytes × World) := do
  let (chunk, world) ← world.read source (some chunkSize)
  if goesOn chunk then
    let (more, world) ← readChunks source (available source world + 1) world
    .ok (chunk ++ more, world)
  else .ok (chunk, world)

/-- Makes the buffer hold a complete line, as far as the source has one. -/
def fill (lines : LineSource) (world : World) : Except IoError (LineSource × World) :=
  if lines.buffer.contains Lines.lineFeed then .ok (lines, world)
  else (readLine lines.source world).map fun (data, world) =>
    ({ lines with buffer := lines.buffer ++ data }, world)

/-- Takes the first line out of a buffer.  There is none if the buffer is empty. -/
def takeLine (buffer : Bytes) : Option (Bytes × Bytes) :=
  match buffer.dropWhile (· != Lines.lineFeed) with
  | _ :: rest => some (Lines.dropReturn (buffer.takeWhile (· != Lines.lineFeed)), rest)
  | [] => if buffer.isEmpty then none else some (buffer, [])

/-- Reads the next line, if there is one. -/
def next (lines : LineSource) (world : World) :
    Except IoError (Option Bytes × LineSource × World) := do
  let (lines, world) ← lines.fill world
  match takeLine lines.buffer with
  | none => .ok (none, lines, world)
  | some (line, buffer) => .ok (some line, { lines with buffer }, world)

end LineSource

end LineShell
