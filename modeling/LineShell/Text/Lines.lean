import LineShell.Text.Blank

/-!
# Lines of a byte stream

A line feed ends a line; a carriage return just before it belongs to the line end.  Bytes after
the last line feed are a line of their own, kept as they are.
-/

namespace LineShell.Lines

def lineFeed : UInt8 := 10

def carriageReturn : UInt8 := 13

/-- A terminated line without the carriage return that may stand at its end. -/
def dropReturn (line : Bytes) : Bytes :=
  if line.getLast? = some carriageReturn then line.dropLast else line

/-- The last line of a stream, which no line feed ends: none if it is empty. -/
def unterminated (line : Bytes) : List Bytes :=
  if line.isEmpty then [] else [line]

def split (bytes : Bytes) : List Bytes :=
  let pieces := bytes.splitOn lineFeed
  pieces.dropLast.map dropReturn ++ unterminated (pieces.getLastD [])

end LineShell.Lines
