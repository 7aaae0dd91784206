import LineShell.FileStore.Open

/-!
# Setting up a store

A store starts with its root, the two devices, and a directory of installed programs.  `install`
then puts files, directories and links at paths, `removeAt` takes them away again, and `renew`
starts a directory anew.  `install` and `removeAt` follow links on the way; `install` makes the
missing directories of the way, also behind links.
-/

namespace LineShell.FileStore

/-- The node of every installed program. -/
def withTools (store : FileStore) (directory : Location) : FileStore :=
  Tool.all.foldl (fun store tool => store.put (Path.ofText tool.fileName :: directory) (.program tool))
    (store.makeDirectories directory)

/-- The location that the names of a path spell, whatever is there. -/
def spelled (path : Path) : Location := path.names.reverse

/-- Makes an empty directory in place of all that is at a path. -/
def renew (store : FileStore) (path : Path) : FileStore :=
  (store.remove (spelled path)).makeDirectories (spelled path)

/-- A store with the devices, the programs in one directory and another, empty directory. -/
def initial (programs home : Path) : FileStore :=
  let devices : Location := [Path.ofText "dev".toList]
  (((empty.makeDirectories devices).put (Path.ofText "null".toList :: devices) .nullDevice).put
    (Path.ofText "full".toList :: devices) .fullDevice).withTools (spelled programs)
    |>.renew home

/-- Goes from a location to a name there.  A link is followed, and where nothing is a directory is
made. -/
def enter : FileStore × Location → Name → FileStore × Location
  | (store, here), name =>
    match store.walk none maxLinks here [name] with
    | .ok arrival => (store, arrival.location)
    | .error _ => (store.makeDirectories (name :: here), name :: here)

/-- Puts a node at an absolute path, with the directories that lead to it.  A directory that is
there already is kept, and a file goes where a write to its path would go. -/
def install (store : FileStore) (path : Path) (node : Node) : FileStore :=
  match path.names.getLast? with
  | none => store
  | some name =>
    let (store, parent) := path.names.dropLast.foldl enter (store, [])
    match node with
    | .directory => (enter (store, parent) name).1
    | .file .. =>
      match store.locateForWriting (maxLinks + 1) maxLinks parent name with
      | .ok location => store.put location node
      | .error _ => store
    | _ => store.put (name :: parent) node

/-- Removes what is at an absolute path.  A link at the end is removed and not what it leads to. -/
def removeAt (store : FileStore) (path : Path) : FileStore :=
  match path.names.getLast? with
  | none => store
  | some name =>
    match store.walk none maxLinks [] path.names.dropLast with
    | .ok arrival => store.remove (name :: arrival.location)
    | .error _ => store

end LineShell.FileStore
