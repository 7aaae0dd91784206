import LineShell.FileStore.Walk
import LineShell.Session

/-!
# Finding programs

A name with a slash is a path and must be a regular file; whether it can be executed is found
out when it is started.  Any other name is looked up in the directories of the search path, in
order, and the first regular file that anybody may execute is taken.
-/

namespace LineShell.Program

def searchSeparator : Char := ':'

def searchVariable : Text := ['P', 'A', 'T', 'H']

/-- The directories of a search path, without empty ones. -/
def searchDirectories (searchPath : Text) : List Text :=
  (searchPath.splitOn searchSeparator).filter (!·.isEmpty)

/-- The path of a program in a directory of the search path. -/
def candidate (directory : Path) (name component : Text) : Path :=
  Path.join (Path.join directory (Path.ofText component)) (Path.ofText name)

def isFile (store : FileStore) (path : Path) : Bool :=
  (store.nodeAt? path).any Node.isFile

/-- Whether a path leads to a regular file that anybody may execute. -/
def isProgramFile (store : FileStore) (path : Path) : Bool :=
  (store.nodeAt? path).any Node.isProgramFile

/-- The path of the program that a name calls. -/
def find? (store : FileStore) (searchPath : Text) (directory : Path) (name : Text) : Option Path :=
  if name.isEmpty then none
  else if name.contains '/' then
    let path := Path.join directory (Path.ofText name)
    if isFile store path then some path else none
  else
    ((searchDirectories searchPath).map (candidate directory name)).find? (isProgramFile store)

/-- The path of the program that a name calls in an environment. -/
def findIn? (store : FileStore) (environment : Environment) (name : Text) : Option Path :=
  find? store ((environment.exported.get? searchVariable).getD []) environment.directory name

/-- Whether a search path has a directory that exists. -/
def isUsableSearchPath (store : FileStore) (environment : Environment) (searchPath : Text) : Bool :=
  (searchDirectories searchPath).any fun component =>
    store.nodeAt? (environment.resolve component) == some .directory

end LineShell.Program
