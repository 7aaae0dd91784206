import LineShell.FileStore.Setup
import LineShell.Proofs.ProgramSearch

/-!
# The order of the search

A search path is a list of directories with colons between them, and the search is a first match in
that list.  A colon cuts the list in two (`searchDirectories_append`), so a search along two paths is
a search along the first and then along the second, and an empty component adds nothing
(`searchDirectories_intercalate`).  A candidate is passed over for one of three reasons: nothing is
there, or what is there is no regular file, or nobody may execute it (`not_isExecutableFile_iff`).

A name with a slash is not searched for.  It denotes a path, and only whether a regular file is there
counts.
-/

namespace LineShell

/-! ## Regular files and execute bits -/

/-- Somebody may execute what has one of the three execute bits. -/
theorem Permissions.isProgram_iff (permissions : Permissions) :
    permissions.isProgram = true ↔ permissions.bits &&& 0o111 ≠ 0 := by
  obtain ⟨bits⟩ := permissions
  have hmask : ∀ i, Nat.testBit 0o111 i = true → i = 6 ∨ i = 3 ∨ i = 0 := by
    intro i hi
    have hlow : i < 7 := by
      by_contra hhigh
      have hsmall : 0o111 < 2 ^ i :=
        lt_of_lt_of_le (by decide : 0o111 < 2 ^ 7) (Nat.pow_le_pow_right (by decide) (by omega))
      simp [Nat.testBit_lt_two_pow hsmall] at hi
    have hbits : ∀ i < 7, Nat.testBit 0o111 i = true → i = 6 ∨ i = 3 ∨ i = 0 := by decide
    exact hbits i hlow hi
  constructor
  · intro hbit hzero
    have hnone (i : Nat) (hi : Nat.testBit 0o111 i = true) : bits.testBit i = false := by
      have hand := congrArg (Nat.testBit · i) hzero
      simpa [hi] using hand
    have h6 := hnone 6 (by decide)
    have h3 := hnone 3 (by decide)
    have h0 := hnone 0 (by decide)
    simp [Permissions.isProgram, h6, h3, h0] at hbit
  · intro hne
    obtain ⟨i, hi⟩ := Nat.exists_testBit_of_ne_zero hne
    rw [Nat.testBit_and, Bool.and_eq_true] at hi
    rcases hmask i hi.2 with rfl | rfl | rfl <;> simp [Permissions.isProgram, hi.1]

namespace Program

variable {store : FileStore} {directory path : Path} {name searchPath : Text}

/-- The path leads to a regular file.  An installed program is one. -/
def IsRegularFile (store : FileStore) (path : Path) : Prop :=
  (∃ tool, store.nodeAt? path = some (.program tool)) ∨
    ∃ content permissions, store.nodeAt? path = some (.file content permissions)

/-- The path leads to a regular file with an execute bit.  An installed program has all three. -/
def IsExecutableFile (store : FileStore) (path : Path) : Prop :=
  (∃ tool, store.nodeAt? path = some (.program tool)) ∨
    ∃ content permissions, store.nodeAt? path = some (.file content permissions) ∧
      permissions.bits &&& 0o111 ≠ 0

theorem isFile_iff : isFile store path = true ↔ IsRegularFile store path := by
  unfold isFile IsRegularFile
  cases hnode : store.nodeAt? path with
  | none => simp
  | some node => cases node <;> simp [Node.isFile]

theorem isProgramFile_iff : isProgramFile store path = true ↔ IsExecutableFile store path := by
  unfold isProgramFile IsExecutableFile
  cases hnode : store.nodeAt? path with
  | none => simp
  | some node => cases node <;> simp [Node.isProgramFile, Permissions.isProgram_iff]

/-- Why a candidate is passed over: nothing is there, or no regular file, or one that nobody may
execute. -/
theorem not_isExecutableFile_iff :
    ¬ IsExecutableFile store path ↔
      store.nodeAt? path = none ∨
        (∃ node, store.nodeAt? path = some node ∧ node.isFile = false) ∨
        ∃ content permissions, store.nodeAt? path = some (.file content permissions) ∧
          permissions.bits &&& 0o111 = 0 := by
  unfold IsExecutableFile
  cases hnode : store.nodeAt? path with
  | none => simp
  | some node => cases node <;> simp [Node.isFile]

/-! ## Components -/

/-- A colon cuts a search path into two. -/
theorem searchDirectories_append (front back : Text) :
    searchDirectories (front ++ ':' :: back) = searchDirectories front ++ searchDirectories back := by
  have hpieces : (front ++ ':' :: back).splitOn ':' = front.splitOn ':' ++ back.splitOn ':' :=
    List.splitOnP_append_cons _ _ (beq_self_eq_true ':')
  simp [searchDirectories, searchSeparator, hpieces]

/-- The directories of a search path are those of its components. -/
theorem searchDirectories_intercalate (components : List Text) :
    searchDirectories ([':'].intercalate components) = components.flatMap searchDirectories := by
  induction components with
  | nil => rfl
  | cons component components ih =>
    cases components with
    | nil => simp [List.intercalate_singleton]
    | cons next rest =>
      have hcolon : [':'].intercalate (component :: next :: rest) =
          component ++ ':' :: [':'].intercalate (next :: rest) := by
        simp [List.intercalate_cons_cons]
      simp [hcolon, searchDirectories_append, ih]

/-! ## Searching -/

/-- The first candidate that may be executed is found. -/
theorem find?_of_isName (hne : name ≠ []) (hslash : '/' ∉ name) :
    find? store searchPath directory name =
      ((searchDirectories searchPath).map (candidate directory name)).find? (isProgramFile store) := by
  simp [find?, hne, hslash]

theorem find?_of_slash (hslash : '/' ∈ name) :
    find? store searchPath directory name =
      if isFile store (Path.join directory (Path.ofText name)) = true then
        some (Path.join directory (Path.ofText name))
      else none := by
  have hne : name ≠ [] := List.ne_nil_of_mem hslash
  simp [find?, hne, hslash]

/-- What is found is the candidate of the first component that has an executable file. -/
theorem find?_eq_some_iff_of_isName (hne : name ≠ []) (hslash : '/' ∉ name) :
    find? store searchPath directory name = some path ↔
      ∃ earlier component later, searchPath.splitOn ':' = earlier ++ component :: later ∧
        component ≠ [] ∧ path = candidate directory name component ∧ IsExecutableFile store path ∧
        ∀ e ∈ earlier, e ≠ [] → ¬ IsExecutableFile store (candidate directory name e) := by
  have hfirst : find? store searchPath directory name =
      (((searchPath.splitOn ':').filter (!·.isEmpty)).find?
        fun component => isProgramFile store (candidate directory name component)).map
          (candidate directory name) := by
    rw [find?_of_isName hne hslash, List.find?_map]
    rfl
  rw [hfirst, List.find?_filter, Option.map_eq_some_iff]
  constructor
  · rintro ⟨component, hfound, rfl⟩
    obtain ⟨hcomponent, earlier, later, hsplit, hearlier⟩ := List.find?_eq_some_iff_append.1 hfound
    simp only [decide_eq_true_eq, isProgramFile_iff] at hcomponent
    refine ⟨earlier, component, later, hsplit, by simpa using hcomponent.1, rfl, hcomponent.2, ?_⟩
    intro e he hfull hprogram
    have hpassed := hearlier e he
    simp [hfull, isProgramFile_iff.2 hprogram] at hpassed
  · rintro ⟨earlier, component, later, hsplit, hfull, rfl, hprogram, hearlier⟩
    refine ⟨component, List.find?_eq_some_iff_append.2 ⟨?_, earlier, later, hsplit, ?_⟩, rfl⟩
    · simp [hfull, isProgramFile_iff.2 hprogram]
    · intro e he
      by_cases hempty : e = []
      · simp [hempty]
      · have hpassed := hearlier e he hempty
        rw [← isProgramFile_iff] at hpassed
        simpa [hempty] using hpassed

/-- A name without a slash is searched for along the search path.  Along two search paths with a colon
between them it is searched for along the first and then along the second.  Empty components can be
put in and left out.  What is found is the path of the name in the first component, from left to right
and empty ones left out, that has a regular file with an execute bit under this name.

A name with a slash does not depend on the search path.  It is found if and only if it leads to a
regular file, executable or not.  The empty name is not found. -/
theorem search_finds_first_candidate (store : FileStore) (directory : Path) (name : Text) :
    (name ≠ [] → '/' ∉ name →
      (∀ front back : Text, find? store (front ++ ':' :: back) directory name =
        (find? store front directory name).or (find? store back directory name)) ∧
      (∀ front back : List Text,
        find? store ([':'].intercalate (front ++ [] :: back)) directory name =
          find? store ([':'].intercalate (front ++ back)) directory name) ∧
      ∀ (searchPath : Text) (path : Path),
        find? store searchPath directory name = some path ↔
          ∃ earlier component later, searchPath.splitOn ':' = earlier ++ component :: later ∧
            component ≠ [] ∧
            path = Path.join (Path.join directory (Path.ofText component)) (Path.ofText name) ∧
            IsExecutableFile store path ∧
            ∀ e ∈ earlier, e ≠ [] → ¬ IsExecutableFile store
              (Path.join (Path.join directory (Path.ofText e)) (Path.ofText name))) ∧
    ('/' ∈ name →
      (∀ searchPath other : Text,
        find? store searchPath directory name = find? store other directory name) ∧
      ∀ (searchPath : Text) (path : Path),
        find? store searchPath directory name = some path ↔
          path = Path.join directory (Path.ofText name) ∧ IsRegularFile store path) ∧
    (name = [] → ∀ searchPath : Text, find? store searchPath directory name = none) := by
  refine ⟨fun hne hslash => ⟨?_, ?_, ?_⟩, fun hslash => ⟨?_, ?_⟩, ?_⟩
  · intro front back
    simp only [find?_of_isName hne hslash, searchDirectories_append, List.map_append,
      List.find?_append]
  · intro front back
    have hempty : searchDirectories [] = [] := rfl
    simp [find?_of_isName hne hslash, searchDirectories_intercalate, hempty]
  · intro searchPath path
    exact find?_eq_some_iff_of_isName hne hslash
  · intro searchPath other
    rw [find?_of_slash hslash, find?_of_slash hslash]
  · intro searchPath path
    rw [find?_of_slash hslash, ← isFile_iff]
    by_cases hfile : isFile store (Path.join directory (Path.ofText name)) = true
    · simp only [if_pos hfile, Option.some_inj]
      constructor
      · rintro rfl
        exact ⟨rfl, hfile⟩
      · rintro ⟨rfl, -⟩
        rfl
    · simp only [if_neg hfile]
      constructor
      · rintro ⟨⟩
      · rintro ⟨rfl, hregular⟩
        exact absurd hregular hfile
  · rintro rfl searchPath
    rfl

/-- A store where the name `t` is a directory, a file that nobody may execute, and a program. -/
def threeNamesakes : FileStore :=
  ((FileStore.empty.install (Path.ofText "/w/a/t".toList) .directory).install
    (Path.ofText "/w/b/t".toList) (.file .empty .ofNewFile)).install
      (Path.ofText "/w/c/t".toList) (.file .empty ⟨0o701⟩)

/-- The name is missing in one directory of the search path, and two more are passed over.  A path to
one of these finds it all the same. -/
theorem search_finds_first_candidate_namesakes :
    let directory : Path := Path.ofText "/w".toList
    let programs : Text := "::no:a:b:c:".toList
    find? threeNamesakes programs directory ['t'] = some (Path.ofText "/w/c/t".toList) ∧
      find? threeNamesakes ("/w/a".toList ++ ':' :: programs) directory ['t'] =
        (find? threeNamesakes "/w/a".toList directory ['t']).or
          (find? threeNamesakes programs directory ['t']) ∧
      find? threeNamesakes programs directory "b/t".toList = some (Path.ofText "/w/b/t".toList) := by
  intro directory programs
  have hplain : threeNamesakes.nodeAt? (Path.ofText "/w/b/t".toList) =
      some (.file .empty .ofNewFile) := by decide +kernel
  have hprogram : threeNamesakes.nodeAt? (Path.ofText "/w/c/t".toList) =
      some (.file .empty ⟨0o701⟩) := by decide +kernel
  have hskipped : ∀ e ∈ [[], [], "no".toList, "a".toList, "b".toList], e ≠ [] →
      ¬ IsExecutableFile threeNamesakes (candidate directory ['t'] e) := by
    simp only [List.forall_mem_cons, not_isExecutableFile_iff]
    refine ⟨fun h => absurd rfl h, fun h => absurd rfl h, fun _ => .inl ?_, fun _ => .inr (.inl ?_),
      fun _ => .inr (.inr ?_), by simp⟩
    · decide +kernel
    · exact ⟨.directory, by decide +kernel, rfl⟩
    · exact ⟨.empty, .ofNewFile, hplain, by decide⟩
  obtain ⟨hname, -, -⟩ := search_finds_first_candidate threeNamesakes directory ['t']
  obtain ⟨hcut, -, hfirst⟩ := hname (by decide) (by decide)
  obtain ⟨-, hpath, -⟩ := search_finds_first_candidate threeNamesakes directory "b/t".toList
  refine ⟨?_, hcut _ _, ?_⟩
  · exact (hfirst programs _).2 ⟨_, "c".toList, [[]], by decide, by decide, by decide,
      .inr ⟨_, _, hprogram, by decide⟩, hskipped⟩
  · exact ((hpath (by decide)).2 programs _).2 ⟨by decide, .inr ⟨_, _, hplain⟩⟩

end Program

end LineShell
