import LineShell.FileStore.Setup
import LineShell.Proofs.Operands
import LineShell.Proofs.PathWalks

/-!
# Changing the directory

`cd` goes to where its target leads and remembers the path of that location instead of the target.
Nothing is lost by this: a path that is taken from the new directory leads where it led behind the
target, since going on from a location does not depend on the way there (`Arrives.append_iff`), and
joining paths can be grouped either way (`Path.join_assoc`).

`FileStore.LeadsTo` says where a path leads whatever the limits of the system are.  The system looks
a path up exactly within its limits (`lookUp_eq_ok_iff`), and `cd` makes a path canonical within
limits of its own (`leadsTo_of_canonicalize`, `canonicalize_of_reaches`).
-/

namespace LineShell

open LineShell.Action

namespace FileStore

variable {store : FileStore} {path directory : Path} {location here : Location}
  {followed longest : Nat}

/-! ## Looking paths up -/

/-- Where an absolute path leads, whatever the limits of the system are.  No path has a NUL character
in it, and the empty path leads nowhere. -/
structure LeadsTo (store : FileStore) (path : Path) (location : Location) : Prop where
  hasNul : path.hasNul = false
  ne_nil : path ≠ []
  arrives : store.Arrives [] path.steps location

/-- Wherever the path leads, it leads there with few links and on short paths. -/
def WithinLimits (store : FileStore) (path : Path) : Prop :=
  ∀ location followed longest, store.Reaches [] path.steps location followed longest →
    followed ≤ maxLinks ∧ longest + 1 < Path.lengthLimit

theorem checkPath_eq_ok_iff :
    checkPath path = .ok () ↔ path.hasNul = false ∧ path.length < Path.lengthLimit := by
  cases hnul : path.hasNul with
  | true => simp [checkPath, hnul]
  | false =>
    by_cases hlong : Path.lengthLimit ≤ path.length
    · simp [checkPath, hnul, hlong]
    · simp [checkPath, hnul, hlong, Nat.lt_of_not_le hlong]

/-- The system finds what a short path leads to with few links. -/
theorem lookUp_eq_ok_iff :
    store.lookUp path = .ok location ↔
      path.hasNul = false ∧ path ≠ [] ∧ path.length < Path.lengthLimit ∧
        ∃ followed longest, followed ≤ maxLinks ∧
          store.Reaches [] path.steps location followed longest := by
  have hlookUp : store.lookUp path = .ok location ↔
      checkPath path = .ok () ∧ store.locate path = .ok location := by
    unfold lookUp
    rw [except_bind_eq_ok]
    simp only [mapError_eq_ok]
    constructor
    · rintro ⟨⟨⟩, hcheck, hlocate⟩
      exact ⟨hcheck, hlocate⟩
    · rintro ⟨hcheck, hlocate⟩
      exact ⟨(), hcheck, hlocate⟩
  rw [hlookUp, checkPath_eq_ok_iff, locate_eq_ok_iff]
  constructor
  · rintro ⟨⟨hnul, hlength⟩, hne, left, hwalk⟩
    obtain ⟨followed, longest, hlinks, -, hreaches⟩ := reaches_of_walk (by simp) hwalk
    exact ⟨hnul, hne, hlength, followed, longest, by omega, hreaches⟩
  · rintro ⟨hnul, hne, hlength, followed, longest, hlinks, hreaches⟩
    exact ⟨⟨hnul, hlength⟩, hne, _, hreaches.walk_eq hlinks (by simp)⟩

/-- A path is made canonical by a walk under a limit. -/
theorem canonicalize_eq_ok_iff :
    store.canonicalize path = .ok location ↔
      path.hasNul = false ∧ path ≠ [] ∧
        ∃ left, store.walk (some Path.lengthLimit) maxLinks [] path.steps =
          .ok ⟨location, left⟩ := by
  unfold canonicalize
  cases hnul : path.hasNul with
  | true => simp
  | false => simp [mapError_eq_ok, follow_eq_ok_iff]

/-- The canonical location is where the path leads, and its path is not too long. -/
theorem reaches_of_canonicalize (h : store.canonicalize path = .ok location) :
    path.hasNul = false ∧ path ≠ [] ∧ ∃ followed longest, longest < Path.lengthLimit ∧
      store.Reaches [] path.steps location followed longest := by
  obtain ⟨hnul, hne, left, hwalk⟩ := canonicalize_eq_ok_iff.1 h
  obtain ⟨followed, longest, -, hlimit, hreaches⟩ :=
    reaches_of_walk (by simp [Path.lengthLimit]) hwalk
  exact ⟨hnul, hne, followed, longest, hlimit _ rfl, hreaches⟩

theorem leadsTo_of_canonicalize (h : store.canonicalize path = .ok location) :
    store.LeadsTo path location := by
  obtain ⟨hnul, hne, followed, longest, -, hreaches⟩ := reaches_of_canonicalize h
  exact ⟨hnul, hne, hreaches.arrives⟩

theorem canonicalize_of_reaches (hnul : path.hasNul = false) (hne : path ≠ [])
    (hreaches : store.Reaches [] path.steps location followed longest) (hlinks : followed ≤ maxLinks)
    (hlimit : longest + 1 < Path.lengthLimit) : store.canonicalize path = .ok location :=
  canonicalize_eq_ok_iff.2 ⟨hnul, hne, _, hreaches.walk_eq hlinks (by simpa using hlimit)⟩

/-! ## Going on from a directory -/

theorem LeadsTo.physical (h : store.LeadsTo path location) : store.Physical location := by
  obtain ⟨followed, longest, hreaches⟩ := h.arrives
  exact hreaches.physical .root fun name hname => Path.isName_of_mem_steps hname

/-- A slash at the end of the path of a directory can be left out. -/
theorem LeadsTo.arrives_names (h : store.LeadsTo path location) :
    store.Arrives [] path.names location := by
  have harrives := h.arrives
  unfold Path.steps at harrives
  split at harrives
  · obtain ⟨middle, hnames, hdot⟩ := arrives_append_iff.1 harrives
    rwa [(arrives_dot_iff.1 hdot).1]
  · exact harrives

/-- A path in a directory leads where it leads from the location of the directory. -/
theorem leadsTo_join_iff {there : Location} (hdirectory : directory ≠ [])
    (hnul : directory.hasNul = false) (harrives : store.Arrives [] directory.names here)
    (hrelative : path.isAbsolute = false) :
    store.LeadsTo (Path.join directory path) there ↔
      path.hasNul = false ∧ store.Arrives here path.onward there := by
  have hsteps := Path.steps_join hdirectory hrelative
  have hwhole : (Path.join directory path).hasNul = path.hasNul := by
    rw [Path.hasNul_join hrelative, hnul, Bool.false_or]
  constructor
  · rintro ⟨hnulPath, -, hpath⟩
    rw [hsteps, harrives.append_iff] at hpath
    exact ⟨hwhole.symm.trans hnulPath, hpath⟩
  · rintro ⟨hnulPath, hpath⟩
    refine ⟨hwhole.trans hnulPath, Path.join_ne_nil hdirectory, ?_⟩
    rwa [hsteps, harrives.append_iff]

theorem Physical.arrives_names_pathOf (h : store.Physical location) :
    store.Arrives [] (pathOf location).names location := by
  obtain ⟨longest, -, hreaches⟩ := h.reaches
  rw [names_pathOf fun name hname => (h.isName name hname).1]
  exact hreaches.arrives

/-- The path of a physical location asks for nothing that is longer than itself. -/
theorem Physical.reaches_steps_pathOf (h : store.Physical location) :
    ∃ longest, longest ≤ (pathOf location).length ∧
      store.Reaches [] (pathOf location).steps location 0 longest := by
  cases location with
  | nil => exact ⟨0, by simp, .dot rfl (.done [])⟩
  | cons name parent =>
    have hname : Path.IsName name := (h.isName name (by simp)).1
    have hlast : pathOf (name :: parent) =
        parent.reverse.flatMap (Path.slash :: ·) ++ [Path.slash] ++ name := by simp [pathOf]
    have hends : (pathOf (name :: parent)).endsInSlash = false := by
      rw [hlast, Path.endsInSlash_append _ hname.ne_nil, hname.endsInSlash_eq_false]
    have hsteps : (pathOf (name :: parent)).steps = (name :: parent).reverse := by
      unfold Path.steps
      rw [hends, names_pathOf fun name hname => (h.isName name hname).1]
      rfl
    rw [hsteps]
    exact h.reaches

/-- The path of a directory that the path itself spells: from the root, with no dots, and with nothing
but directories on the way. -/
structure IsCanonicalDirectory (store : FileStore) (directory : Path) : Prop where
  isAbsolute : directory.isAbsolute = true
  spelling : pathOf (spelled directory) = directory
  noDots : ∀ name ∈ directory.names, name ≠ Path.dot ∧ name ≠ Path.dotDot
  noLinks : ∀ above, above <:+ spelled directory → store.find? above = some .directory
  found : store.nodeAt? directory = some .directory

theorem Physical.isCanonicalDirectory (h : store.Physical location)
    (hdirectory : store.isDirectory location = true) (hnul : (pathOf location).hasNul = false)
    (hlength : (pathOf location).length < Path.lengthLimit) :
    store.IsCanonicalDirectory (pathOf location) := by
  have hnames : (pathOf location).names = location.reverse :=
    names_pathOf fun name hname => (h.isName name hname).1
  have hspelled : spelled (pathOf location) = location := by
    rw [spelled, hnames, List.reverse_reverse]
  refine ⟨isAbsolute_pathOf location, by rw [hspelled], fun name hname => ?_,
    fun above habove => ?_, ?_⟩
  · rw [hnames, List.mem_reverse] at hname
    exact ⟨(h.isName name hname).2.ne_dot, (h.isName name hname).2.ne_dotDot⟩
  · rw [hspelled] at habove
    exact h.find?_of_isSuffix hdirectory habove
  · obtain ⟨longest, -, hreaches⟩ := h.reaches_steps_pathOf
    have hlookUp : store.lookUp (pathOf location) = .ok location :=
      lookUp_eq_ok_iff.2 ⟨hnul, pathOf_ne_nil location, hlength, 0, longest, by simp, hreaches⟩
    rw [nodeAt?, hlookUp]
    exact h.find?_of_isSuffix hdirectory (List.suffix_refl location)

/-- A dot behind the path of a directory leads to the same directory. -/
theorem Physical.canonicalize_join_dot (h : store.Physical location)
    (hdirectory : store.isDirectory location = true) (hnul : (pathOf location).hasNul = false)
    (hlength : (pathOf location).length + 1 < Path.lengthLimit) :
    store.canonicalize (Path.join (pathOf location) Path.dot) = .ok location := by
  obtain ⟨longest, hlongest, hreaches⟩ := h.reaches
  have hsteps : (Path.join (pathOf location) Path.dot).steps = location.reverse ++ [Path.dot] := by
    rw [Path.steps_join (pathOf_ne_nil location) rfl,
      names_pathOf fun name hname => (h.isName name hname).1]
    rfl
  have hnulWhole : (Path.join (pathOf location) Path.dot).hasNul = false := by
    rw [Path.hasNul_join rfl, hnul]
    rfl
  have hdot : store.Reaches location [Path.dot] location 0 0 := .dot hdirectory (.done location)
  refine canonicalize_of_reaches hnulWhole (Path.join_ne_nil (pathOf_ne_nil location))
    (hsteps ▸ hreaches.append hdot) (by simp) ?_
  rw [max_eq_left (Nat.zero_le longest)]
  omega

/-! ## Within the limits -/

theorem lookUp_eq_ok_iff_leadsTo (hshort : path.length < Path.lengthLimit)
    (hlimits : store.WithinLimits path) :
    store.lookUp path = .ok location ↔ store.LeadsTo path location := by
  rw [lookUp_eq_ok_iff]
  constructor
  · rintro ⟨hnul, hne, -, followed, longest, -, hreaches⟩
    exact ⟨hnul, hne, hreaches.arrives⟩
  · rintro ⟨hnul, hne, followed, longest, hreaches⟩
    exact ⟨hnul, hne, hshort, followed, longest, (hlimits _ _ _ hreaches).1, hreaches⟩

theorem nodeAt?_eq_some_iff_leadsTo {node : Node} (hshort : path.length < Path.lengthLimit)
    (hlimits : store.WithinLimits path) :
    store.nodeAt? path = some node ↔
      ∃ location, store.LeadsTo path location ∧ store.find? location = some node := by
  simp only [← lookUp_eq_ok_iff_leadsTo hshort hlimits]
  unfold nodeAt?
  cases store.lookUp path with
  | ok location => simp
  | error cause => simp

end FileStore

/-! ## The builtin -/

namespace Builtin

open FileStore

variable {target : Text} {state after : State} {status : Status} {outputs : Outputs}

theorem run_cd_eq_ok_iff :
    (Call.cd target).run outputs state = .ok status after ↔
      status = 0 ∧ ∃ location,
        state.world.store.canonicalize (state.session.environment.resolve target) = .ok location ∧
          state.world.store.isDirectory location = true ∧
          after = { state with session := enter location state.session } := by
  constructor
  · intro h
    obtain ⟨location, middle, hcheck, hchange⟩ := bind_eq_ok.1 h
    obtain ⟨hfound, rfl⟩ := check_eq_ok.1 hcheck
    obtain ⟨rfl, rfl⟩ := change_eq_ok.1 hchange
    obtain ⟨hlocation, hdirectory⟩ := cdDestination_eq_ok_iff.1 hfound
    exact ⟨rfl, location, hlocation, hdirectory, rfl⟩
  · rintro ⟨rfl, location, hlocation, hdirectory, rfl⟩
    exact run_cd outputs hlocation hdirectory

/-- Entering a directory again changes nothing. -/
theorem enter_enter (location : Location) (session : Session) :
    enter location (enter location session) = enter location session := by
  simp [enter, Environment.withVariable]

/-- What `cd` finds is a physical directory whose path the system takes. -/
theorem physical_of_canonicalize {store : FileStore} {path : Path} {location : Location}
    (hstore : store.NulFree) (h : store.canonicalize path = .ok location) :
    store.Physical location ∧ (pathOf location).hasNul = false ∧
      (pathOf location).length < Path.lengthLimit := by
  obtain ⟨hnul, -, followed, longest, hlongest, hreaches⟩ := reaches_of_canonicalize h
  have hnuls := hreaches.nul_not_mem hstore (by simp) (nul_not_mem_of_mem_steps hnul)
  have hlength := hreaches.length_pathOf_le
  have hroot : (pathOf []).length < Path.lengthLimit := by decide
  exact ⟨(leadsTo_of_canonicalize h).physical, hasNul_pathOf hnuls,
    lt_of_le_of_lt hlength (max_lt hroot hlongest)⟩

/-- `cd` only changes the point of view.  It succeeds for the targets that lead to a directory, up to
the limits of the system.  The new directory then has a path without links and dots, which `PWD` shows
and which `cd .` keeps, and a path that is taken from there leads where it leads behind the target. -/
theorem cd_changes_viewpoint (outputs : Outputs) (target : Text) (state : State)
    (hstore : state.world.store.NulFree) :
    let store := state.world.store
    let old := state.session.environment
    let cd (target : Text) (state : State) := (Call.cd target).run outputs state
    let leadsToDirectory := ∃ location,
      store.LeadsTo (old.resolve target) location ∧ store.isDirectory location = true
    (∀ status after, cd target state = .ok status after → leadsToDirectory) ∧
      (store.WithinLimits (old.resolve target) → leadsToDirectory →
        ∃ after, cd target state = .ok 0 after) ∧
      ∀ status after, cd target state = .ok status after →
        let new := after.session.environment
        status = 0 ∧ after.world = state.world ∧
          store.IsCanonicalDirectory new.directory ∧
          new.exported.get? directoryVariable = some new.directory.toText ∧
          (new.directory.length + 1 < Path.lengthLimit → cd ['.'] after = .ok 0 after) ∧
          ∀ path : Path, path.isAbsolute = false →
            let here := Path.join new.directory path
            let behind := Path.join old.directory (Path.join (Path.ofText target) path)
            (∀ location, store.LeadsTo here location ↔ store.LeadsTo behind location) ∧
              ((∀ asked ∈ [here, behind],
                  asked.length < Path.lengthLimit ∧ store.WithinLimits asked) →
                store.nodeAt? here = store.nodeAt? behind) := by
  intro store old cd leadsToDirectory
  refine ⟨fun status after h => ?_, fun hlimits hleads => ?_, fun status after h => ?_⟩
  · obtain ⟨-, location, hlocation, hdirectory, -⟩ := run_cd_eq_ok_iff.1 h
    exact ⟨location, leadsTo_of_canonicalize hlocation, hdirectory⟩
  · obtain ⟨location, ⟨hnul, hne, followed, longest, hreaches⟩, hdirectory⟩ := hleads
    obtain ⟨hlinks, hlongest⟩ := hlimits _ _ _ hreaches
    exact ⟨_, run_cd outputs (canonicalize_of_reaches hnul hne hreaches hlinks hlongest) hdirectory⟩
  · obtain ⟨rfl, location, hlocation, hdirectory, rfl⟩ := run_cd_eq_ok_iff.1 h
    obtain ⟨hphysical, hnul, hlength⟩ := physical_of_canonicalize hstore hlocation
    intro new
    refine ⟨rfl, rfl, hphysical.isCanonicalDirectory hdirectory hnul hlength, ?_, fun hlonger => ?_,
      fun path hrelative => ?_⟩
    · exact OrderedMap.get?_set_self _ _ _
    · have hdot := hphysical.canonicalize_join_dot hdirectory hnul hlonger
      refine run_cd_eq_ok_iff.2 ⟨rfl, location, hdot, hdirectory, ?_⟩
      simp only [enter_enter]
    · intro here behind
      have hleads := leadsTo_of_canonicalize hlocation
      have hbehind : behind = Path.join (old.resolve target) path := Path.join_assoc _ _ _
      -- Both paths go on from the location that `cd` has found, the one along its path and the other
      -- behind the target.
      have hsame : ∀ there, store.LeadsTo here there ↔ store.LeadsTo behind there := by
        intro there
        rw [hbehind, leadsTo_join_iff hleads.ne_nil hleads.hasNul hleads.arrives_names hrelative]
        exact leadsTo_join_iff (pathOf_ne_nil location) hnul hphysical.arrives_names_pathOf hrelative
      refine ⟨hsame, fun hlimits => Option.ext fun node => ?_⟩
      obtain ⟨hshort, hwithin⟩ := hlimits here (by simp)
      obtain ⟨hshort', hwithin'⟩ := hlimits behind (by simp)
      rw [nodeAt?_eq_some_iff_leadsTo hshort hwithin, nodeAt?_eq_some_iff_leadsTo hshort' hwithin']
      simp only [hsame]

/-- A store where `l` in the directory `/a` is a link to the directory `/b/c`. -/
def linkedDirectory : FileStore :=
  let inRoot (name : Text) : Location := [Path.ofText name]
  (((FileStore.empty.put (inRoot ['a']) .directory).put (inRoot ['b']) .directory).put
    (Path.ofText ['c'] :: inRoot ['b']) .directory).put
      (Path.ofText ['l'] :: inRoot ['a']) (.link (Path.ofText "/b/c".toList))

/-- The directory above a link is the one above the target of the link. -/
theorem cd_changes_viewpoint_link :
    let outputs := Outputs.ofStreams .ofConsole
    let session : Session := { environment := { directory := Path.ofText "/a".toList } }
    let state : State :=
      { session, world := { store := linkedDirectory, console := { kind := .captured } } }
    let after : State := { state with session := enter [Path.ofText ['b']] session }
    linkedDirectory.NulFree ∧ (Call.cd "l/..".toList).run outputs state = .ok 0 after ∧
      linkedDirectory.IsCanonicalDirectory (Path.ofText "/b".toList) ∧
      (Call.cd ['.']).run outputs after = .ok 0 after ∧
      ∀ location, linkedDirectory.LeadsTo (Path.ofText "/b/c".toList) location ↔
        linkedDirectory.LeadsTo (Path.ofText "/a/l/../c".toList) location := by
  intro outputs session state after
  have hnulFree : linkedDirectory.NulFree := by
    refine NulFree.put (NulFree.put (NulFree.put (nulFree_empty.put _ ?_) _ ?_) _ ?_) _ ?_
    · simp
    · simp
    · simp
    · rintro target ⟨rfl⟩
      decide
  have hrun : (Call.cd "l/..".toList).run outputs state = .ok 0 after :=
    run_cd outputs (by decide +kernel) (by decide +kernel)
  obtain ⟨-, -, hentered⟩ := cd_changes_viewpoint outputs "l/..".toList state hnulFree
  obtain ⟨-, -, hcanonical, -, hdot, hview⟩ := hentered 0 after hrun
  exact ⟨hnulFree, hrun, hcanonical, hdot (by decide), (hview (Path.ofText ['c']) (by decide)).1⟩

end Builtin

end LineShell
