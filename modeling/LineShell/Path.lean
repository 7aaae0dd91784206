import LineShell.Text.Utf8

/-!
# Paths

A path is a byte string in which slashes separate names.  Paths are joined by their text alone:
nothing is looked up and nothing is simplified, so `a/..` stays what it is.
-/

namespace LineShell

/-- A path as the system sees it. -/
abbrev Path := Bytes

/-- One component of a path. -/
abbrev Name := Bytes

namespace Path

def slash : UInt8 := 47

/-- The name of the directory itself. -/
def dot : Name := [46]

/-- The name of the directory above. -/
def dotDot : Name := [46, 46]

/-- The path that a text denotes. -/
def ofText (text : Text) : Path := Utf8.encode text

/-- The path as it is shown. -/
def toText (path : Path) : Text := Utf8.decodeLossy path

def isAbsolute (path : Path) : Bool := path.head? == some slash

/-- Whether a path ends in a slash, and so can only denote a directory. -/
def endsInSlash (path : Path) : Bool := path.getLast? == some slash

/-- Whether a path contains a NUL character, which the system cannot take. -/
def hasNul (path : Path) : Bool := path.contains 0

/-- The system takes paths of fewer bytes than this. -/
def lengthLimit : Nat := 4096

/-- Longest name of a directory entry. -/
def maxNameLength : Nat := 255

/-- A path taken relative to a directory.  An absolute path stands for itself; otherwise a slash
comes between the two unless the directory ends in one or is empty. -/
def join (directory path : Path) : Path :=
  if path.isAbsolute then path
  else if directory.isEmpty || directory.endsInSlash then directory ++ path
  else directory ++ slash :: path

/-- The names of a path, without the empty ones between slashes. -/
def names (path : Path) : List Name :=
  (path.splitOn slash).filter (!·.isEmpty)

/-- The names to walk along.  A slash at the end asks for a directory and counts as a dot. -/
def steps (path : Path) : List Name :=
  if path.endsInSlash then path.names ++ [dot] else path.names

theorem join_of_isAbsolute {directory path : Path} (h : path.isAbsolute = true) :
    join directory path = path := by
  simp [join, h]

end Path

end LineShell
