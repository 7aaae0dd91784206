import LineShell.FileStore
import LineShell.SystemError

/-!
# Walking a path

A path is walked one name at a time from a directory.  A symbolic link is replaced by its target
wherever it stands, and a walk follows at most `maxLinks` of them, which is what ends a walk
through links that lead back to themselves.

The walk is split in two.  `stretch` goes along names until it meets a link and needs no bound;
`walk` repeats it with one link fewer each time.

A walk can be under a limit on the paths that it asks for.  The system walks a path on its own and
has no limit there; whoever follows a path name by name asks the system at each name about the
path from the root, and that path must not get too long.

`walk_append` says that a walk without a limit may be interrupted anywhere: walking along two
lists of names is walking along the first and going on from there.
-/

namespace LineShell.FileStore

/-- How many symbolic links one walk follows. -/
def maxLinks : Nat := 40

/-- Where a walk without links ends. -/
inductive Stretch where
  /-- All names are used up. -/
  | arrived (location : Location)
  /-- A link stands in the directory `parent`, with names left behind it. -/
  | link (parent : Location) (target : Path) (rest : List Name)
  deriving DecidableEq, Repr

/-- Whether a name may be asked for in a directory: the path from the root to it is shorter than
the limit, if there is one.  Dots are not asked for.  The empty name stands for the directory
itself, with a slash at the end of its path. -/
def mayAsk (limit : Option Nat) (here : Location) (name : Name) : Bool :=
  name == Path.dot || name == Path.dotDot ||
    limit.all fun limit => (pathOf (name :: here)).length < limit

/-- Whether the names behind a name ask for a directory there.  Two dots do, and so does a dot at
the end; before another name a dot says nothing. -/
def wantDirectory : List Name → Bool
  | [] => false
  | name :: rest =>
    name == Path.dotDot || (name == Path.dot && (rest.isEmpty || wantDirectory rest))

/-- Goes along names up to the first link. -/
def stretch (store : FileStore) (limit : Option Nat) :
    Location → List Name → Except SystemCode Stretch
  | here, [] => .ok (.arrived here)
  | here, name :: rest =>
    if mayAsk limit here name = false then .error .nameTooLong
    else if store.isDirectory here = false then .error .notDirectory
    else if name = Path.dot then store.stretch limit here rest
    else if name = Path.dotDot then store.stretch limit here.tail rest
    else if Path.maxNameLength < name.length then .error .nameTooLong
    else
      match store.find? (name :: here) with
      | some (.link target) => .ok (.link here target rest)
      | node =>
        if (wantDirectory rest && !mayAsk limit (name :: here) []) = true then
          .error .nameTooLong
        else if node.isNone = true then .error .noSuchEntry
        else store.stretch limit (name :: here) rest

/-- Where a walk ends, and how many links it could still follow. -/
structure Arrival where
  location : Location
  linksLeft : Nat
  deriving DecidableEq, Repr

/-- The directory from which a path is walked. -/
def startOf (base : Location) (path : Path) : Location :=
  if path.isAbsolute then [] else base

/-- Goes along names from a location and follows at most `links` links. -/
def walk (store : FileStore) (limit : Option Nat) (links : Nat) (here : Location)
    (names : List Name) : Except SystemCode Arrival :=
  match store.stretch limit here names with
  | .error code => .error code
  | .ok (.arrived location) => .ok ⟨location, links⟩
  | .ok (.link parent target rest) =>
    match links with
    | 0 => .error .tooManyLinks
    | links + 1 => store.walk limit links (startOf parent target) (target.steps ++ rest)

/-- The location that a path leads to from a base directory, with a link at its end followed. -/
def follow (store : FileStore) (limit : Option Nat) (base : Location) (path : Path) :
    Except SystemCode Location :=
  if path.isEmpty then .error .noSuchEntry
  else (store.walk limit maxLinks (startOf base path) path.steps).map (·.location)

/-- The location that the system finds at a path, taken from a base directory. -/
def locateFrom (store : FileStore) (base : Location) (path : Path) : Except SystemCode Location :=
  store.follow none base path

/-- The location that the system finds at an absolute path. -/
def locate (store : FileStore) (path : Path) : Except SystemCode Location :=
  store.locateFrom [] path

/-! ## Paths from outside

A path from outside may contain a NUL character, which no path of the system does.  It may also
be too long: the system takes a path in one piece only up to a limit.  A path is made canonical
name by name, so there the limit is not on the path as it is given but on the canonical path as it
grows. -/

/-- Checks what the system refuses about a path before it looks anything up. -/
def checkPath (path : Path) : Except IoError Unit :=
  if path.hasNul then .error .nulInPath
  else if Path.lengthLimit ≤ path.length then .error (.system .nameTooLong)
  else .ok ()

/-- The location that the system finds when it is given an absolute path in one piece. -/
def lookUp (store : FileStore) (path : Path) : Except IoError Location := do
  checkPath path
  (store.locate path).mapError .system

/-- The location of an absolute path that is followed name by name. -/
def canonicalize (store : FileStore) (path : Path) : Except IoError Location :=
  if path.hasNul then .error .nulInPath
  else (store.follow (some Path.lengthLimit) [] path).mapError .system

/-- The node that the system finds at a path, if it finds any. -/
def nodeAt? (store : FileStore) (path : Path) : Option Node :=
  match store.lookUp path with
  | .ok location => store.find? location
  | .error _ => none

/-- The location of a process that was started in the directory at a path. -/
def workingDirectory (store : FileStore) (path : Path) : Location :=
  (store.locate path).toOption.getD []

/-! ## Interrupting a walk -/

@[simp]
theorem mayAsk_none (here : Location) (name : Name) : mayAsk none here name = true := by
  simp [mayAsk]

theorem stretch_append (store : FileStore) (here : Location) (front back : List Name) :
    store.stretch none here (front ++ back) =
      match store.stretch none here front with
      | .error code => .error code
      | .ok (.arrived location) => store.stretch none location back
      | .ok (.link parent target rest) => .ok (.link parent target (rest ++ back)) := by
  fun_induction stretch store none here front with
  | case1 => rfl
  | case2 here name rest h => simp at h
  | case3 here name rest _ hdir => simp [stretch, hdir]
  | case4 here rest hdir _ ih => simp_all [stretch]
  | case5 here rest hdir _ hdot ih => simp_all [stretch]
  | case6 here name rest _ hdir hdot hdotDot hlong =>
    simp [stretch, hdir, hdot, hdotDot, hlong]
  | case7 here name rest _ hdir hdot hdotDot hlong target hfind =>
    simp [stretch, hdir, hdot, hdotDot, hlong, hfind]
  | case8 here name rest _ hdir hdot hdotDot hlong hwant => simp at hwant
  | case9 here name rest _ hdir hdot hdotDot hlong _ _ hnone => simp_all [stretch]
  | case10 here name rest _ hdir hdot hdotDot hlong _ _ hsome ih =>
    rw [List.cons_append, stretch, if_neg (by simp), if_neg hdir, if_neg hdot, if_neg hdotDot,
      if_neg hlong]
    simp_all

/-- A walk without a limit may be interrupted anywhere. -/
theorem walk_append (store : FileStore) (links : Nat) (here : Location) (front back : List Name) :
    store.walk none links here (front ++ back) =
      (store.walk none links here front).bind fun arrival =>
        store.walk none arrival.linksLeft arrival.location back := by
  induction links generalizing here front with
  | zero =>
    rw [walk, stretch_append, walk]
    cases store.stretch none here front with
    | error => rfl
    | ok s =>
      cases s with
      | arrived location =>
        simp only [Except.bind]
        rw [walk]
      | link => rfl
  | succ links ih =>
    rw [walk, stretch_append, walk]
    cases store.stretch none here front with
    | error => rfl
    | ok s =>
      cases s with
      | arrived location =>
        simp only [Except.bind]
        rw [walk]
      | link parent target rest =>
        simp only [← List.append_assoc]
        exact ih _ _

end LineShell.FileStore
