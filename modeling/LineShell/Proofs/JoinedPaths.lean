import LineShell.Path

/-!
# Joined paths

A path in a directory is the path of the directory, a slash if need be (`Path.withSlash`), and the
path (`Path.join_eq`).  So paths can be joined in any grouping (`Path.join_assoc`), and a joined path
has the names of the directory and then its own (`Path.names_join`, `Path.steps_join`).
-/

namespace LineShell.Path

variable {directory path target : Path} {name : Name}

/-! ## Names -/

@[simp]
theorem names_nil : names [] = [] := by simp [names]

theorem names_append_slash (front back : Path) :
    names (front ++ slash :: back) = names front ++ names back := by
  have hpieces : (front ++ slash :: back).splitOn slash =
      front.splitOn slash ++ back.splitOn slash :=
    List.splitOnP_append_cons _ _ (beq_self_eq_true slash)
  unfold names
  rw [hpieces, List.filter_append]

/-- The path is a single name: it is not empty, and it has no slash. -/
structure IsName (name : Path) : Prop where
  ne_nil : name ≠ []
  unbroken : slash ∉ name

theorem IsName.names_eq (h : IsName name) : names name = [name] := by
  have hpieces : name.splitOn slash = [name] :=
    List.splitOnP_eq_singleton fun b hb => beq_false_of_ne (ne_of_mem_of_not_mem hb h.unbroken)
  unfold names
  rw [hpieces, List.filter_cons_of_pos (by simp [h.ne_nil])]
  rfl

theorem IsName.isAbsolute_eq_false (h : IsName name) : isAbsolute name = false := by
  refine beq_eq_false_iff_ne.2 fun hhead => h.unbroken ?_
  exact List.mem_of_head? hhead

theorem IsName.endsInSlash_eq_false (h : IsName name) : endsInSlash name = false :=
  beq_eq_false_iff_ne.2 fun hlast => h.unbroken (List.mem_of_getLast? hlast)

/-- A name of a path stands in the path and has no slash. -/
theorem isName_and_isInfix_of_mem_names (h : name ∈ names path) : IsName name ∧ name <:+: path := by
  induction hlength : path.length using Nat.strongRecOn generalizing path with
  | ind n ih =>
    have hunbroken (front : Path) (hfront : slash ∉ front) (hmem : name ∈ names front) :
        IsName name ∧ name = front := by
      by_cases hempty : front = []
      · simp [hempty, names] at hmem
      · rw [(IsName.mk hempty hfront).names_eq, List.mem_singleton] at hmem
        exact ⟨hmem ▸ ⟨hempty, hfront⟩, hmem⟩
    by_cases hslash : slash ∈ path
    · obtain ⟨front, back, rfl, hfront⟩ := List.eq_append_cons_of_mem hslash
      rw [names_append_slash, List.mem_append] at h
      rcases h with hmem | hmem
      · obtain ⟨hname, rfl⟩ := hunbroken front hfront hmem
        exact ⟨hname, (List.prefix_append _ _).isInfix⟩
      · obtain ⟨hname, hpart⟩ := ih back.length (by simp [← hlength]; omega) hmem rfl
        exact ⟨hname, hpart.trans ⟨front ++ [slash], [], by simp⟩⟩
    · obtain ⟨hname, rfl⟩ := hunbroken path hslash h
      exact ⟨hname, List.infix_refl name⟩

theorem isName_of_mem_names (h : name ∈ names path) : IsName name :=
  (isName_and_isInfix_of_mem_names h).1

/-- A step is a name of the path or the dot for a slash at its end. -/
theorem mem_steps (h : name ∈ steps path) : name ∈ names path ∨ name = dot := by
  unfold steps at h
  split at h
  · simpa using h
  · exact .inl h

theorem isName_of_mem_steps (h : name ∈ steps path) : IsName name := by
  rcases mem_steps h with hname | rfl
  · exact isName_of_mem_names hname
  · exact ⟨by decide, by decide⟩

/-! ## Joining -/

theorem endsInSlash_append (front : Path) {back : Path} (h : back ≠ []) :
    endsInSlash (front ++ back) = endsInSlash back := by
  unfold endsInSlash
  rw [List.getLast?_append, List.getLast?_eq_some_getLast h, Option.some_or]

theorem endsInSlash_eq_true (h : path.endsInSlash = true) : ∃ front, path = front ++ [slash] :=
  List.getLast?_eq_some_iff.1 (beq_iff_eq.1 h)

/-- A directory with what comes between it and a path in it. -/
def withSlash (directory : Path) : Path :=
  if directory = [] ∨ directory.endsInSlash = true then directory else directory ++ [slash]

theorem join_eq (hrelative : path.isAbsolute = false) :
    join directory path = withSlash directory ++ path := by
  by_cases hslash : directory = [] ∨ directory.endsInSlash = true
  · simp [join, hrelative, withSlash, hslash]
  · simp [join, hrelative, withSlash, hslash]

theorem join_ne_nil (hdirectory : directory ≠ []) : join directory path ≠ [] := by
  cases habsolute : path.isAbsolute with
  | true =>
    rw [join_of_isAbsolute habsolute]
    rintro rfl
    cases habsolute
  | false =>
    rw [join_eq habsolute, withSlash]
    split <;> simp [hdirectory]

theorem isAbsolute_append (hne : directory ≠ []) :
    isAbsolute (directory ++ path) = isAbsolute directory := by
  cases directory with
  | nil => contradiction
  | cons b directory => rfl

/-- A path in a directory begins like the directory. -/
theorem isAbsolute_join (hdirectory : directory ≠ []) (hrelative : path.isAbsolute = false) :
    isAbsolute (join directory path) = isAbsolute directory := by
  rw [join_eq hrelative, withSlash]
  split
  · exact isAbsolute_append hdirectory
  · rw [List.append_assoc, isAbsolute_append hdirectory]

theorem endsInSlash_withSlash (hdirectory : directory ≠ []) :
    endsInSlash (withSlash directory) = true := by
  by_cases hslash : directory.endsInSlash = true
  · have hself : withSlash directory = directory := if_pos (.inr hslash)
    rw [hself, hslash]
  · have hadded : withSlash directory = directory ++ [slash] := if_neg (by simp [hdirectory, hslash])
    simp [hadded, endsInSlash]

theorem withSlash_append (directory path : Path) :
    withSlash (withSlash directory ++ path) = withSlash directory ++ withSlash path := by
  by_cases hdirectory : directory = []
  · simp [hdirectory, withSlash]
  · have hends : endsInSlash (withSlash directory) = true := endsInSlash_withSlash hdirectory
    by_cases hpath : path = []
    · have hself : withSlash (withSlash directory) = withSlash directory := if_pos (.inr hends)
      have hnothing : withSlash [] = [] := if_pos (.inl rfl)
      rw [hpath, List.append_nil, hself, hnothing, List.append_nil]
    · have hwhole : endsInSlash (withSlash directory ++ path) = endsInSlash path :=
        endsInSlash_append _ hpath
      by_cases hslash : path.endsInSlash = true
      · rw [withSlash, if_pos (.inr (hwhole.trans hslash)), withSlash.eq_1 path, if_pos (.inr hslash)]
      · rw [withSlash, if_neg (by simp [hwhole, hslash, hpath]), withSlash.eq_1 path,
          if_neg (by simp [hslash, hpath]), List.append_assoc]

/-- Paths are joined in any grouping. -/
theorem join_assoc (directory target path : Path) :
    join directory (join target path) = join (join directory target) path := by
  cases habsolute : path.isAbsolute with
  | true => simp [join_of_isAbsolute habsolute]
  | false =>
    cases htarget : target.isAbsolute with
    | true =>
      have hne : target ≠ [] := by
        rintro rfl
        cases htarget
      have hjoined : isAbsolute (join target path) = true :=
        (isAbsolute_join hne habsolute).trans htarget
      rw [join_of_isAbsolute hjoined, join_of_isAbsolute htarget]
    | false =>
      have hjoined : isAbsolute (join target path) = false := by
        by_cases hne : target = []
        · simpa [hne, join_eq habsolute, withSlash] using habsolute
        · exact (isAbsolute_join hne habsolute).trans htarget
      rw [join_eq hjoined, join_eq habsolute, join_eq habsolute, join_eq htarget, withSlash_append,
        List.append_assoc]

/-! ## The way along a joined path -/

/-- The names behind a directory that a path stands for.  The empty path stands for the directory
itself. -/
def onward (path : Path) : List Name := if path = [] then [dot] else path.steps

/-- A path in a directory has the names of the directory and then its own. -/
theorem names_join (hrelative : path.isAbsolute = false) :
    names (join directory path) = names directory ++ names path := by
  rw [join_eq hrelative, withSlash]
  by_cases hempty : directory = []
  · simp [hempty]
  · cases hslash : directory.endsInSlash with
    | true =>
      obtain ⟨front, rfl⟩ := endsInSlash_eq_true hslash
      simp [names_append_slash]
    | false => simp [hempty, names_append_slash]

theorem steps_join (hdirectory : directory ≠ []) (hrelative : path.isAbsolute = false) :
    steps (join directory path) = names directory ++ onward path := by
  by_cases hempty : path = []
  · subst hempty
    have hends : endsInSlash (join directory []) = true := by
      rw [join_eq hrelative, List.append_nil, endsInSlash_withSlash hdirectory]
    simp [steps, hends, names_join hrelative, onward]
  · have hends : endsInSlash (join directory path) = endsInSlash path := by
      rw [join_eq hrelative, endsInSlash_append _ hempty]
    unfold onward steps
    rw [if_neg hempty, hends, names_join hrelative]
    split <;> simp

/-- The way to a name in a directory. -/
theorem IsName.steps_join (h : IsName name) (hdirectory : directory ≠ []) :
    steps (join directory name) = names directory ++ [name] := by
  have honward : onward name = [name] := by
    rw [onward, if_neg h.ne_nil, steps, h.endsInSlash_eq_false, h.names_eq]
    rfl
  rw [Path.steps_join hdirectory h.isAbsolute_eq_false, honward]

/-- A name in a directory has the path of the directory in front. -/
theorem IsName.isPrefix_join (h : IsName name) (directory : Path) :
    directory <+: join directory name := by
  rw [join_eq h.isAbsolute_eq_false, withSlash]
  split
  · exact List.prefix_append _ _
  · rw [List.append_assoc]
    exact List.prefix_append _ _

theorem hasNul_join (hrelative : path.isAbsolute = false) :
    hasNul (join directory path) = (hasNul directory || hasNul path) := by
  rw [join_eq hrelative, withSlash]
  unfold hasNul
  split <;> simp [slash]

end LineShell.Path
