import LineShell.FileStore.Content
import LineShell.OrderedMap
import LineShell.Path
import LineShell.Program.Tool
import LineShell.Text.Order

/-!
# The file store

A store is a tree of nodes, kept flat: each node is found by its `Location`, the list of names
that lead to it from the root, innermost first.  The root is always a directory.

Every file belongs to the user who runs the shell, so of the permission bits the owner's decide
what may be read, written and executed.  The search for programs looks at all three execute bits,
because it asks only whether a file is meant to be a program.
-/

namespace LineShell

/-- The names from a node up to the root, innermost first. -/
abbrev Location := List Name

structure Permissions where
  bits : Nat
  deriving DecidableEq, Repr

namespace Permissions

/-- What a newly created file gets: read and write for the owner, read for all others. -/
def ofNewFile : Permissions := ⟨0o644⟩

def mayRead (p : Permissions) : Bool := p.bits.testBit 8

def mayWrite (p : Permissions) : Bool := p.bits.testBit 7

def mayExecute (p : Permissions) : Bool := p.bits.testBit 6

/-- Whether anybody may execute. -/
def isProgram (p : Permissions) : Bool :=
  p.bits.testBit 6 || p.bits.testBit 3 || p.bits.testBit 0

end Permissions

/-- What can be found at a location. -/
inductive Node where
  | directory
  | file (content : Content) (permissions : Permissions)
  | link (target : Path)
  /-- An installed program, which everybody may read and execute and nobody may change. -/
  | program (tool : Tool)
  /-- The device that is always empty and takes every write. -/
  | nullDevice
  /-- The device that takes no write. -/
  | fullDevice
  deriving DecidableEq, Repr

namespace Node

def isFile : Node → Bool
  | file .. | program _ => true
  | _ => false

/-- The bytes of a file.  All other nodes have none. -/
def content : Node → Bytes
  | file content _ => content.bytes
  | _ => []

/-- Whether a node may be opened for reading.  A directory may, although reading it fails. -/
def mayRead : Node → Bool
  | file _ permissions => permissions.mayRead
  | _ => true

/-- Whether a node is a regular file that anybody may execute. -/
def isProgramFile : Node → Bool
  | file _ permissions => permissions.isProgram
  | program _ => true
  | _ => false

end Node

structure FileStore where
  nodes : OrderedMap Location Node := {}
  deriving DecidableEq, Repr

namespace FileStore

/-- The store with nothing but its root. -/
def empty : FileStore := {}

def find? (store : FileStore) : Location → Option Node
  | [] => some .directory
  | name :: parent => store.nodes.get? (name :: parent)

/-- Puts a node at a location, in place of the one that is there. -/
def put (store : FileStore) (location : Location) (node : Node) : FileStore :=
  ⟨store.nodes.set location node⟩

/-- Removes the node at a location and everything below it. -/
def remove (store : FileStore) (location : Location) : FileStore :=
  ⟨store.nodes.filterKeys fun key => !location.isSuffixOf key⟩

def isDirectory (store : FileStore) (location : Location) : Bool :=
  store.find? location == some .directory

/-- Makes a directory at the location and at all locations above it where nothing is. -/
def makeDirectories (store : FileStore) : Location → FileStore
  | [] => store
  | name :: parent =>
    let store := store.makeDirectories parent
    match store.find? (name :: parent) with
    | some _ => store
    | none => store.put (name :: parent) .directory

/-- The path that leads from the root to a location. -/
def pathOf : Location → Path
  | [] => [Path.slash]
  | location => location.reverse.flatMap (Path.slash :: ·)

/-- The order of names and paths in a listing: byte by byte. -/
def nameOrder (a b : Bytes) : Bool := inOrder UInt8.toNat a b

/-- The names in the directory at a location, sorted. -/
def namesIn (store : FileStore) (location : Location) : List Name :=
  (store.nodes.keys.filterMap fun
    | [] => none
    | name :: parent => if parent = location then some name else none).mergeSort nameOrder

/-- Everything below a location with its path from there, sorted by that path. -/
def below (store : FileStore) (location : Location) : List (Path × Node) :=
  let found := store.nodes.toList.filterMap fun (key, node) =>
    if location.isSuffixOf key && key.length != location.length then
      some ([Path.slash].intercalate (key.take (key.length - location.length)).reverse, node)
    else none
  found.mergeSort fun a b => nameOrder a.1 b.1

theorem pairwise_namesIn (store : FileStore) (location : Location) :
    (store.namesIn location).Pairwise fun a b => nameOrder a b = true :=
  pairwise_mergeSort_inOrder UInt8.toNat id _

/-- The names in a directory are those of the nodes right below it. -/
theorem mem_namesIn {store : FileStore} {location : Location} {name : Name} :
    name ∈ store.namesIn location ↔ (store.find? (name :: location)).isSome = true := by
  rw [find?, ← OrderedMap.mem_keys, namesIn, List.mem_mergeSort, List.mem_filterMap]
  constructor
  · rintro ⟨_ | ⟨entry, parent⟩, hkey, h⟩
    · cases h
    · simp only [Option.ite_none_right_eq_some, Option.some.injEq] at h
      obtain ⟨rfl, rfl⟩ := h
      exact hkey
  · exact fun h => ⟨name :: location, h, by simp⟩

theorem find?_put {store : FileStore} {location location' : Location} {node : Node}
    (h : location' ≠ []) :
    (store.put location node).find? location' =
      if location = location' then some node else store.find? location' := by
  match location' with
  | [] => exact absurd rfl h
  | name :: parent => exact OrderedMap.get?_set ..

theorem find?_put_of_ne {store : FileStore} {location location' : Location} {node : Node}
    (h : location ≠ location') : (store.put location node).find? location' =
      store.find? location' := by
  match location' with
  | [] => rfl
  | name :: parent => exact OrderedMap.get?_set_of_ne h

end FileStore

end LineShell
