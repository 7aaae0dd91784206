import LineShell.FileStore.Walk
import LineShell.Redirection.Operator

/-!
# Opening files

Opening resolves a path once, to a location; what happens to the open file afterwards goes
through that location.  For reading the path must lead to something.  For writing only the
directory of its last name must exist: a missing file is created, also behind a link that leads
nowhere, and a path whose last name cannot be that of a file is refused before the file is looked
for.
-/

namespace LineShell.FileStore

/-- Opens the file at a path, taken from a base directory, for reading. -/
def openForReadingFrom (store : FileStore) (base : Location) (path : Path) :
    Except IoError Location := do
  checkPath path
  let location ← (store.locateFrom base path).mapError .system
  match store.find? location with
  | none => .error (.system .noSuchEntry)
  | some node =>
    if node.mayRead then .ok location else .error (.system .permissionDenied)

/-- Opens the file at an absolute path for reading. -/
def openForReading (store : FileStore) (path : Path) : Except IoError Location :=
  store.openForReadingFrom [] path

/-- The location that a write to a path goes to.  The last name may be missing; a link there is
followed.  `depth` bounds the number of such links and is always greater than `links`. -/
def locateForWriting (store : FileStore) :
    (depth links : Nat) → (base : Location) → Path → Except SystemCode Location
  | 0, _, _, _ => .error .tooManyLinks
  | depth + 1, links, base, path =>
    match path.names.getLast? with
    | none => .error .isDirectory
    | some name => do
      let arrival ← store.walk none links (startOf base path) path.names.dropLast
      if store.isDirectory arrival.location = false then .error .notDirectory
      else if name = Path.dot ∨ name = Path.dotDot ∨ path.endsInSlash = true then
        .error .isDirectory
      else if Path.maxNameLength < name.length then .error .nameTooLong
      else
        match store.find? (name :: arrival.location) with
        | some (.link target) =>
          match arrival.linksLeft with
          | 0 => .error .tooManyLinks
          | linksLeft + 1 => store.locateForWriting depth linksLeft arrival.location target
        | some .directory => .error .isDirectory
        | _ => .ok (name :: arrival.location)

/-- Opens the node at a location for writing: a missing file is created, and an existing one is
emptied if asked for. -/
def openAt (store : FileStore) (location : Location) (mode : Redirection.Mode) :
    Except SystemCode FileStore :=
  match store.find? location with
  | none => .ok (store.put location (.file .empty .ofNewFile))
  | some (.file _ permissions) =>
    if permissions.mayWrite = false then .error .permissionDenied
    else
      match mode with
      | .truncate => .ok (store.put location (.file .empty permissions))
      | .append => .ok store
  | some .nullDevice | some .fullDevice => .ok store
  | some (.program _) => .error .permissionDenied
  | some .directory | some (.link _) => .error .isDirectory

/-- Opens the file at an absolute path for writing. -/
def openForWriting (store : FileStore) (path : Path) (mode : Redirection.Mode) :
    Except IoError (Location × FileStore) := do
  checkPath path
  if path.isEmpty then .error (.system .noSuchEntry)
  let location ← (store.locateForWriting (maxLinks + 1) maxLinks [] path).mapError .system
  let store ← (store.openAt location mode).mapError .system
  .ok (location, store)

end LineShell.FileStore
