import LineShell.Program.Search
import LineShell.Proofs.Encoding
import LineShell.Proofs.JoinedPaths

/-!
# Where programs are found

Whoever exports a search path is told whether any of its directories exists, and whoever looks for a
program walks to a file in each of them.  These are two walks.  They agree, because a walk may be
interrupted anywhere: the walk to a file in a directory is the walk to that directory and one name
more (`Path.IsName.steps_join`).  So where a file is found there is a directory
(`FileStore.nodeAt?_directory_of_nodeAt?_join`), and a search path that has none finds no program
(`Program.find?_of_unusable`).
-/

namespace LineShell

/-! ## The walk to a name in a directory -/

namespace FileStore

variable {store : FileStore} {directory : Path} {name : Name} {node : Node}

/-- A path that the system takes has no part that it refuses. -/
theorem checkPath_of_isPrefix {path longer : Path} (hpart : path <+: longer)
    (h : checkPath longer = .ok ()) : checkPath path = .ok () := by
  have hlength := hpart.length_le
  unfold checkPath at h ⊢
  split at h
  · cases h
  next hnul =>
  split at h
  · cases h
  next hshort =>
  have hnul' : path.hasNul = false := by
    simp only [Path.hasNul, Bool.not_eq_true, List.contains_eq_mem, decide_eq_false_iff_not]
      at hnul ⊢
    exact fun hmem => hnul (hpart.subset hmem)
  rw [hnul', if_neg Bool.false_ne_true, if_neg (by omega)]

theorem walk_nil (limit : Option Nat) (links : Nat) (here : Location) :
    store.walk limit links here [] = .ok ⟨here, links⟩ := by
  rw [walk, stretch]

/-- A dot goes nowhere, but only from a directory. -/
theorem walk_dot (links : Nat) (here : Location) (rest : List Name) :
    store.walk none links here (Path.dot :: rest) =
      if store.isDirectory here = true then store.walk none links here rest
      else .error .notDirectory := by
  rw [walk, stretch, if_neg (by simp), if_pos rfl]
  cases hdirectory : store.isDirectory here with
  | true => rw [if_neg (by decide), if_pos rfl, ← walk]
  | false => rfl

/-- Going on from a place to a name needs a directory there. -/
theorem isDirectory_of_walk_cons {links : Nat} {here : Location} {names : List Name}
    {arrival : Arrival} (h : store.walk none links here (name :: names) = .ok arrival) :
    store.isDirectory here = true := by
  cases hdirectory : store.isDirectory here with
  | true => rfl
  | false =>
    rw [walk, stretch, if_neg (by simp), if_pos hdirectory] at h
    cases h

/-- Following a path from the root is walking along its steps. -/
theorem follow_eq_ok_iff {limit : Option Nat} {path : Path} {location : Location} :
    store.follow limit [] path = .ok location ↔
      path ≠ [] ∧ ∃ left, store.walk limit maxLinks [] path.steps = .ok ⟨location, left⟩ := by
  have hstart : startOf [] path = [] := ite_self _
  rw [follow, hstart]
  cases path with
  | nil => simp
  | cons b path =>
    cases hwalk : store.walk limit maxLinks [] (Path.steps (b :: path)) with
    | error code => simp [Except.map]
    | ok arrival =>
      obtain ⟨found, left⟩ := arrival
      simp [Except.map]

theorem locate_eq_ok_iff {path : Path} {location : Location} :
    store.locate path = .ok location ↔
      path ≠ [] ∧ ∃ left, store.walk none maxLinks [] path.steps = .ok ⟨location, left⟩ :=
  follow_eq_ok_iff

theorem nodeAt?_eq_some_iff {path : Path} :
    store.nodeAt? path = some node ↔
      checkPath path = .ok () ∧
        ∃ location, store.locate path = .ok location ∧ store.find? location = some node := by
  unfold nodeAt? lookUp
  cases checkPath path with
  | error cause => simp [bind, Except.bind]
  | ok _ =>
    cases hlocate : store.locate path with
    | error code => simp [bind, Except.bind, Except.mapError]
    | ok location => simp [bind, Except.bind, Except.mapError]

/-- If a name in a directory leads anywhere, the path of the directory leads to a directory. -/
theorem nodeAt?_directory_of_nodeAt?_join (hname : Path.IsName name) (hdirectory : directory ≠ [])
    (h : store.nodeAt? (Path.join directory name) = some node) :
    store.nodeAt? directory = some .directory := by
  obtain ⟨hcheck, location, hlocate, -⟩ := nodeAt?_eq_some_iff.1 h
  obtain ⟨-, left, hwalk⟩ := locate_eq_ok_iff.1 hlocate
  rw [hname.steps_join hdirectory, walk_append] at hwalk
  cases hmiddle : store.walk none maxLinks [] directory.names with
  | error code =>
    rw [hmiddle] at hwalk
    cases hwalk
  | ok middle =>
    rw [hmiddle] at hwalk
    have hisDirectory : store.isDirectory middle.location = true := isDirectory_of_walk_cons hwalk
    -- A slash at the end of the directory asks for what is known already.
    have hsteps : store.walk none maxLinks [] directory.steps = .ok middle := by
      unfold Path.steps
      split
      · rw [walk_append, hmiddle]
        exact (walk_dot _ _ _).trans (by rw [if_pos hisDirectory, walk_nil])
      · exact hmiddle
    refine nodeAt?_eq_some_iff.2 ⟨checkPath_of_isPrefix (hname.isPrefix_join directory) hcheck,
      middle.location, locate_eq_ok_iff.2 ⟨hdirectory, middle.linksLeft, hsteps⟩, ?_⟩
    exact beq_iff_eq.1 hisDirectory

end FileStore

/-! ## Search paths without a directory -/

namespace Path

/-- A text without a slash is the text of a name. -/
theorem isName_ofText {text : Text} (hne : text ≠ []) (hslash : '/' ∉ text) :
    IsName (ofText text) where
  ne_nil := Utf8.encode_ne_nil hne
  unbroken := fun hmem => hslash ((Utf8.mem_encode_iff (n := 47) (by decide)).1 hmem)

theorem join_ofText_ne_nil (directory : Path) {text : Text} (h : text ≠ []) :
    join directory (ofText text) ≠ [] := by
  have hne : ofText text ≠ [] := Utf8.encode_ne_nil h
  unfold join
  split
  · exact hne
  · split
    · exact List.append_ne_nil_of_right_ne_nil _ hne
    · exact List.append_ne_nil_of_right_ne_nil _ (List.cons_ne_nil slash _)

end Path

namespace Program

variable {store : FileStore} {searchPath : Text} {directory : Path}

/-- None of the parts between the colons of a search path, which is taken from a directory, names a
directory that exists.  Empty parts do not count. -/
def Unusable (store : FileStore) (directory : Path) (searchPath : Text) : Prop :=
  ∀ component ∈ searchPath.splitOn ':', component ≠ [] →
    store.nodeAt? (Path.join directory (Path.ofText component)) ≠ some .directory

theorem isUsableSearchPath_eq_false_iff {environment : Environment} :
    isUsableSearchPath store environment searchPath = false ↔
      Unusable store environment.directory searchPath := by
  unfold isUsableSearchPath searchDirectories Unusable
  simp [searchSeparator, Environment.resolve]

/-- No program is found with a search path that has no directory. -/
theorem find?_of_unusable (h : Unusable store directory searchPath) {name : Text}
    (hslash : '/' ∉ name) : find? store searchPath directory name = none := by
  unfold find?
  split
  · rfl
  next hempty =>
  rw [if_neg (by simpa using hslash), List.find?_eq_none]
  intro path hpath hfound
  obtain ⟨component, hcomponent, rfl⟩ := List.mem_map.1 hpath
  obtain ⟨hpart, hfull⟩ := List.mem_filter.1 hcomponent
  have hne : component ≠ [] := by simpa using hfull
  obtain ⟨node, hnode⟩ : ∃ node,
      store.nodeAt? (candidate directory name component) = some node :=
    Option.isSome_iff_exists.1 (Option.isSome_of_any hfound)
  have hname : Path.IsName (Path.ofText name) := Path.isName_ofText (by simpa using hempty) hslash
  exact h component hpart hne
    (FileStore.nodeAt?_directory_of_nodeAt?_join hname (Path.join_ofText_ne_nil directory hne) hnode)

end Program

end LineShell
