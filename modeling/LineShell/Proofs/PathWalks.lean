import LineShell.Proofs.ProgramSearch

/-!
# Where a path leads

`FileStore.walk` goes along a path as far as the limits of the system allow.  `FileStore.Reaches` says
where a path leads on its own: it has one rule for each kind of name, it follows as many links as there
are, and it keeps account of what the limits are about, of the number of links and of the longest path
that was asked for on the way.  A walk finds exactly what is reached within its limits
(`reaches_of_walk`, `Reaches.walk_eq`), so what is known of interrupted walks holds without limits too
(`arrives_append_iff`, `Arrives.unique`).

A location that is reached from the root is `Physical`: it exists, no link stands on the way to it,
and all that is above it is a directory.  Its own path leads to it and follows no link
(`Physical.reaches`).
-/

namespace LineShell

namespace Path

/-- The name of an entry of a directory: no dot, no two dots, and not too long. -/
structure IsEntry (name : Name) : Prop where
  ne_dot : name ≠ dot
  ne_dotDot : name ≠ dotDot
  length_le : name.length ≤ maxNameLength

end Path

namespace FileStore

/-! ## What is reached -/

/-- Going along names from a location leads to another one, where each link on the way is replaced by
its target.  On the way so many links are followed, and no path from the root that is asked for is
longer than the longest one. -/
inductive Reaches (store : FileStore) :
    Location → List Name → Location → Nat → Nat → Prop
  | done (here : Location) : Reaches store here [] here 0 0
  | dot {here names there followed longest} (directory : store.isDirectory here = true)
      (rest : Reaches store here names there followed longest) :
      Reaches store here (Path.dot :: names) there followed longest
  | dotDot {here names there followed longest} (directory : store.isDirectory here = true)
      (rest : Reaches store here.tail names there followed longest) :
      Reaches store here (Path.dotDot :: names) there followed longest
  | link {here name names there followed longest target}
      (directory : store.isDirectory here = true) (entry : Path.IsEntry name)
      (found : store.find? (name :: here) = some (.link target))
      (rest : Reaches store (startOf here target) (target.steps ++ names) there followed longest) :
      Reaches store here (name :: names) there (followed + 1)
        (max (pathOf (name :: here)).length longest)
  | entry {here name names there followed longest node}
      (directory : store.isDirectory here = true) (entry : Path.IsEntry name)
      (found : store.find? (name :: here) = some node) (solid : ∀ target, node ≠ .link target)
      (rest : Reaches store (name :: here) names there followed longest) :
      Reaches store here (name :: names) there followed
        (max (pathOf (name :: here)).length longest)

variable {store : FileStore} {here there middle : Location} {name : Name}
  {names front back : List Name} {limit : Option Nat} {links followed longest : Nat}

/-! ## One name of a walk -/

theorem walk_cons_dot (hdirectory : store.isDirectory here = true) :
    store.walk limit links here (Path.dot :: names) = store.walk limit links here names := by
  have hstretch : store.stretch limit here (Path.dot :: names) = store.stretch limit here names := by
    rw [stretch]
    simp [mayAsk, hdirectory]
  rw [walk, hstretch, ← walk]

theorem walk_cons_dotDot (hdirectory : store.isDirectory here = true) :
    store.walk limit links here (Path.dotDot :: names) = store.walk limit links here.tail names := by
  have hdots : Path.dotDot ≠ Path.dot := by decide
  have hstretch : store.stretch limit here (Path.dotDot :: names) =
      store.stretch limit here.tail names := by
    rw [stretch]
    simp [mayAsk, hdirectory, hdots]
  rw [walk, hstretch, ← walk]

/-- A link is replaced by its target. -/
theorem walk_cons_link {target : Path} (hask : mayAsk limit here name = true)
    (hdirectory : store.isDirectory here = true) (hentry : Path.IsEntry name)
    (hfind : store.find? (name :: here) = some (.link target)) :
    store.walk limit (links + 1) here (name :: names) =
      store.walk limit links (startOf here target) (target.steps ++ names) := by
  have hshort : ¬ Path.maxNameLength < name.length := Nat.not_lt.2 hentry.length_le
  have hstretch : store.stretch limit here (name :: names) = .ok (.link here target names) := by
    rw [stretch]
    simp [hask, hdirectory, hentry.ne_dot, hentry.ne_dotDot, hshort, hfind]
  rw [walk, hstretch]

/-- What is no link is entered. -/
theorem walk_cons_entry {node : Node} (hask : mayAsk limit here name = true)
    (hdirectory : store.isDirectory here = true) (hentry : Path.IsEntry name)
    (hfind : store.find? (name :: here) = some node) (hsolid : ∀ target, node ≠ .link target)
    (hwant : mayAsk limit (name :: here) [] = true) :
    store.walk limit links here (name :: names) = store.walk limit links (name :: here) names := by
  have hshort : ¬ Path.maxNameLength < name.length := Nat.not_lt.2 hentry.length_le
  have hstretch : store.stretch limit here (name :: names) =
      store.stretch limit (name :: here) names := by
    rw [stretch]
    simp only [hask, hdirectory, hentry.ne_dot, hentry.ne_dotDot, hshort, hfind, hwant]
    cases node <;> simp_all
  rw [walk, hstretch, ← walk]

/-- Names lead from a location to another one, whatever the limits of a walk are. -/
def Arrives (store : FileStore) (here : Location) (names : List Name) (there : Location) : Prop :=
  ∃ followed longest, store.Reaches here names there followed longest

theorem Reaches.arrives (h : store.Reaches here names there followed longest) :
    store.Arrives here names there := ⟨followed, longest, h⟩

/-! ## Walks and limits -/

/-- Asking for a directory with a slash at the end takes one byte more. -/
theorem length_pathOf_nil_cons (name : Name) (here : Location) :
    (pathOf ([] :: name :: here)).length = (pathOf (name :: here)).length + 1 := by
  simp [pathOf]
  omega

/-- A length is below the limit, if there is one. -/
def Below (limit : Option Nat) (length : Nat) : Prop := ∀ bound ∈ limit, length < bound

@[simp]
theorem below_none (length : Nat) : Below none length := by simp [Below]

@[simp]
theorem below_some_iff {bound length : Nat} : Below (some bound) length ↔ length < bound := by
  simp [Below]

theorem Below.of_le {length shorter : Nat} (h : Below limit length) (hle : shorter ≤ length) :
    Below limit shorter := fun bound hbound => lt_of_le_of_lt hle (h bound hbound)

theorem Below.max {length other : Nat} (h : Below limit length) (h' : Below limit other) :
    Below limit (max length other) := fun bound hbound => max_lt (h bound hbound) (h' bound hbound)

theorem mayAsk_of_below (h : Below limit (pathOf (name :: here)).length) :
    mayAsk limit here name = true := by
  cases limit with
  | none => simp
  | some bound => simp [mayAsk, h bound rfl]

/-- What may be asked for is below the limit, except for the name of a dot. -/
theorem below_of_mayAsk (hask : ¬ mayAsk limit here name = false) (hdot : name ≠ Path.dot)
    (hdotDot : name ≠ Path.dotDot) : Below limit (pathOf (name :: here)).length := by
  rintro bound ⟨⟩
  simpa [mayAsk, hdot, hdotDot] using hask

/-- A walk that has links enough and keeps below its limit finds what is reached. -/
theorem Reaches.walk_eq (h : store.Reaches here names there followed longest)
    (hlinks : followed ≤ links) (hlimit : Below limit (longest + 1)) :
    store.walk limit links here names = .ok ⟨there, links - followed⟩ := by
  induction h generalizing links with
  | done here => rw [walk_nil, Nat.sub_zero]
  | dot directory _ ih => rw [walk_cons_dot directory, ih hlinks hlimit]
  | dotDot directory _ ih => rw [walk_cons_dotDot directory, ih hlinks hlimit]
  | @link here name names there followed longest target directory entry found _ ih =>
    have hask : mayAsk limit here name = true := mayAsk_of_below (hlimit.of_le (by omega))
    obtain ⟨left, rfl⟩ : ∃ left, links = left + 1 := Nat.exists_eq_add_one.2 (by omega)
    have hrest : store.walk limit left (startOf here target) (target.steps ++ names) =
        .ok ⟨there, left - followed⟩ := ih (by omega) (hlimit.of_le (by omega))
    rw [walk_cons_link hask directory entry found, hrest, Nat.add_sub_add_right]
  | @entry here name names there followed longest node directory entry found solid _ ih =>
    have hask : mayAsk limit here name = true := mayAsk_of_below (hlimit.of_le (by omega))
    have hlonger := length_pathOf_nil_cons name here
    have hwant : mayAsk limit (name :: here) [] = true := mayAsk_of_below (hlimit.of_le (by omega))
    have hrest := ih hlinks (hlimit.of_le (by omega))
    rw [walk_cons_entry hask directory entry found solid hwant, hrest]

/-- Where it leads on from the end of a stretch: nowhere else, or along the link that stands there. -/
inductive Stretch.Continues (store : FileStore) : Stretch → Location → Nat → Nat → Prop
  | arrived (location : Location) : Continues store (.arrived location) location 0 0
  | link {parent : Location} {target : Path} {names : List Name} {there : Location}
      {followed longest : Nat}
      (rest : store.Reaches (startOf parent target) (target.steps ++ names) there followed longest) :
      Continues store (.link parent target names) there (followed + 1) longest

/-- A stretch is a part of what is reached, and it keeps below its limit. -/
theorem Stretch.Continues.reaches {result : Stretch} (h : result.Continues store there followed longest)
    (hlimit : Below limit longest) (hstretch : store.stretch limit here names = .ok result) :
    ∃ longest, Below limit longest ∧ store.Reaches here names there followed longest := by
  fun_induction stretch store limit here names with
  | case1 here =>
    cases hstretch
    cases h
    exact ⟨0, hlimit, .done _⟩
  | case2 | case3 | case6 | case8 | case9 => cases hstretch
  | case4 here rest hdirectory _ ih =>
    obtain ⟨longest, hlimit, hrest⟩ := ih hstretch
    exact ⟨longest, hlimit, .dot (by simpa using hdirectory) hrest⟩
  | case5 here rest hdirectory _ _ ih =>
    obtain ⟨longest, hlimit, hrest⟩ := ih hstretch
    exact ⟨longest, hlimit, .dotDot (by simpa using hdirectory) hrest⟩
  | case7 here name rest hask hdirectory hdot hdotDot hlong target hfind =>
    cases hstretch
    cases h with
    | link hrest =>
      have hentry : Path.IsEntry name := ⟨hdot, hdotDot, Nat.not_lt.1 hlong⟩
      have hbelow := (below_of_mayAsk hask hdot hdotDot).max hlimit
      exact ⟨_, hbelow, .link (by simpa using hdirectory) hentry hfind hrest⟩
  | case10 here name rest hask hdirectory hdot hdotDot hlong _ hsolid hsome ih =>
    obtain ⟨longest, hlimit, hrest⟩ := ih hstretch
    obtain ⟨node, hfind⟩ : ∃ node, store.find? (name :: here) = some node :=
      Option.ne_none_iff_exists'.1 (by simpa using hsome)
    have hentry : Path.IsEntry name := ⟨hdot, hdotDot, Nat.not_lt.1 hlong⟩
    have hnode : ∀ target, node ≠ .link target := fun target hlink => hsolid target (hlink ▸ hfind)
    have hbelow := (below_of_mayAsk hask hdot hdotDot).max hlimit
    exact ⟨_, hbelow, .entry (by simpa using hdirectory) hentry hfind hnode hrest⟩

/-- What a walk finds is reached, within the limits of the walk. -/
theorem reaches_of_walk {arrival : Arrival} (hpositive : Below limit 0)
    (h : store.walk limit links here names = .ok arrival) :
    ∃ followed longest, followed + arrival.linksLeft = links ∧ Below limit longest ∧
      store.Reaches here names arrival.location followed longest := by
  induction links generalizing here names with
  | zero =>
    rw [walk] at h
    cases hstretch : store.stretch limit here names with
    | error code => simp [hstretch] at h
    | ok result =>
      cases result with
      | link parent target rest => simp [hstretch] at h
      | arrived location =>
        obtain rfl : Arrival.mk location 0 = arrival := by simpa [hstretch] using h
        obtain ⟨longest, hlimit, hreaches⟩ :=
          (Stretch.Continues.arrived location).reaches hpositive hstretch
        exact ⟨0, longest, rfl, hlimit, hreaches⟩
  | succ links ih =>
    rw [walk] at h
    cases hstretch : store.stretch limit here names with
    | error code => simp [hstretch] at h
    | ok result =>
      cases result with
      | arrived location =>
        obtain rfl : Arrival.mk location (links + 1) = arrival := by simpa [hstretch] using h
        obtain ⟨longest, hlimit, hreaches⟩ :=
          (Stretch.Continues.arrived location).reaches hpositive hstretch
        exact ⟨0, longest, by simp, hlimit, hreaches⟩
      | link parent target rest =>
        obtain ⟨followed, longest, hlinks, hbelow, hrest⟩ := ih (by simpa [hstretch] using h)
        obtain ⟨longest, hlimit, hreaches⟩ := (Stretch.Continues.link hrest).reaches hbelow hstretch
        exact ⟨followed + 1, longest, by omega, hlimit, hreaches⟩

/-! ## Going on from where one is -/

theorem Reaches.append {followed' longest' : Nat}
    (hfront : store.Reaches here front middle followed longest)
    (hback : store.Reaches middle back there followed' longest') :
    store.Reaches here (front ++ back) there (followed + followed') (max longest longest') := by
  induction hfront with
  | done here => simpa using hback
  | dot directory _ ih => exact .dot directory (ih hback)
  | dotDot directory _ ih => exact .dotDot directory (ih hback)
  | link directory entry found _ ih =>
    have hrest := ih hback
    rw [List.append_assoc] at hrest
    have hlink := Reaches.link directory entry found hrest
    rwa [Nat.add_right_comm, ← max_assoc] at hlink
  | entry directory entry found solid _ ih =>
    have hentry := Reaches.entry directory entry found solid (ih hback)
    rwa [← max_assoc] at hentry

/-- Whatever has been reached, it is found by a walk with links enough and no other limit. -/
theorem arrives_iff_walk :
    store.Arrives here names there ↔
      ∃ links left, store.walk none links here names = .ok ⟨there, left⟩ := by
  constructor
  · rintro ⟨followed, longest, h⟩
    exact ⟨followed, _, h.walk_eq le_rfl (by simp)⟩
  · rintro ⟨links, left, hwalk⟩
    obtain ⟨followed, longest, -, -, h⟩ := reaches_of_walk (by simp) hwalk
    exact h.arrives

/-- Names lead nowhere else than where they lead. -/
theorem Arrives.unique (h : store.Arrives here names there) (h' : store.Arrives here names middle) :
    there = middle := by
  obtain ⟨followed, longest, hthere⟩ := h
  obtain ⟨followed', longest', hmiddle⟩ := h'
  have hwalk : store.walk none (followed + followed') here names = .ok ⟨there, _⟩ :=
    hthere.walk_eq (by omega) (by simp)
  have hwalk' : store.walk none (followed + followed') here names = .ok ⟨middle, _⟩ :=
    hmiddle.walk_eq (by omega) (by simp)
  rw [hwalk] at hwalk'
  exact congrArg Arrival.location (Except.ok.inj hwalk')

/-- Going along two lists of names is going along the first one and on from there. -/
theorem arrives_append_iff :
    store.Arrives here (front ++ back) there ↔
      ∃ middle, store.Arrives here front middle ∧ store.Arrives middle back there := by
  constructor
  · intro h
    obtain ⟨links, left, hwalk⟩ := arrives_iff_walk.1 h
    rw [walk_append] at hwalk
    cases hfront : store.walk none links here front with
    | error code => simp [hfront, Except.bind] at hwalk
    | ok arrival =>
      have hback : store.walk none arrival.linksLeft arrival.location back = .ok ⟨there, left⟩ := by
        simpa [hfront, Except.bind] using hwalk
      exact ⟨arrival.location, arrives_iff_walk.2 ⟨_, _, hfront⟩, arrives_iff_walk.2 ⟨_, _, hback⟩⟩
  · rintro ⟨middle, ⟨_, _, hfront⟩, ⟨_, _, hback⟩⟩
    exact (hfront.append hback).arrives

/-- Once it is known where the first names lead, it only matters where it goes on from there. -/
theorem Arrives.append_iff (h : store.Arrives here front middle) :
    store.Arrives here (front ++ back) there ↔ store.Arrives middle back there := by
  rw [arrives_append_iff]
  constructor
  · rintro ⟨other, hfront, hback⟩
    rwa [h.unique hfront]
  · exact fun hback => ⟨middle, h, hback⟩

theorem arrives_nil_iff : store.Arrives here [] there ↔ there = here := by
  constructor
  · rintro ⟨_, _, ⟨⟩⟩
    rfl
  · rintro rfl
    exact ⟨0, 0, .done _⟩

/-- A dot leads nowhere else, but only from a directory. -/
theorem arrives_dot_iff :
    store.Arrives here [Path.dot] there ↔ there = here ∧ store.isDirectory here = true := by
  constructor
  · rintro ⟨_, _, h⟩
    cases h with
    | dot directory rest => exact ⟨arrives_nil_iff.1 rest.arrives, directory⟩
    | link _ entry => exact absurd rfl entry.ne_dot
    | entry _ entry => exact absurd rfl entry.ne_dot
  · rintro ⟨rfl, directory⟩
    exact ⟨0, 0, .dot directory (.done _)⟩

/-! ## Locations without links -/

/-- A location that exists, with no link on the way to it and nothing but directories above it. -/
inductive Physical (store : FileStore) : Location → Prop
  | root : Physical store []
  | entry {parent : Location} {name : Name} {node : Node} (above : Physical store parent)
      (directory : store.isDirectory parent = true) (isName : Path.IsName name)
      (entry : Path.IsEntry name) (found : store.find? (name :: parent) = some node)
      (solid : ∀ target, node ≠ .link target) : Physical store (name :: parent)

namespace Physical

theorem tail (h : store.Physical here) : store.Physical here.tail := by
  cases h with
  | root => exact .root
  | entry above => exact above

theorem isName (h : store.Physical here) :
    ∀ name ∈ here, Path.IsName name ∧ Path.IsEntry name := by
  induction h with
  | root => simp
  | entry _ _ isName entry _ _ ih => exact List.forall_mem_cons.2 ⟨⟨isName, entry⟩, ih⟩

/-- All that is above a physical location is a directory, and so is no link. -/
theorem find?_of_isSuffix (h : store.Physical here) (hdirectory : store.isDirectory here = true)
    (habove : there <:+ here) : store.find? there = some .directory := by
  induction h with
  | root =>
    obtain rfl := List.eq_nil_of_suffix_nil habove
    rfl
  | entry _ directory _ _ _ _ ih =>
    rcases List.suffix_cons_iff.1 habove with rfl | hparent
    · simpa [isDirectory] using hdirectory
    · exact ih directory hparent

/-- The names of a physical location lead to it from the root, and no link is followed. -/
theorem reaches (h : store.Physical here) :
    ∃ longest, longest ≤ (pathOf here).length ∧ store.Reaches [] here.reverse here 0 longest := by
  induction h with
  | root => exact ⟨0, by simp, .done []⟩
  | @entry parent name node _ directory _ entry found solid ih =>
    obtain ⟨longest, hlongest, hparent⟩ := ih
    have hstep := Reaches.entry directory entry found solid (.done _)
    refine ⟨_, ?_, by simpa using hparent.append hstep⟩
    have hlonger : (pathOf parent).length ≤ (pathOf (name :: parent)).length := by
      cases parent <;> simp [pathOf]
    omega

end Physical

/-- What is reached from a physical location is physical. -/
theorem Reaches.physical (h : store.Reaches here names there followed longest)
    (hhere : store.Physical here) (hnames : ∀ name ∈ names, Path.IsName name) :
    store.Physical there := by
  induction h with
  | done => exact hhere
  | dot _ _ ih => exact ih hhere (List.forall_mem_cons.1 hnames).2
  | dotDot _ _ ih => exact ih hhere.tail (List.forall_mem_cons.1 hnames).2
  | @link here _ _ _ _ _ target _ _ _ _ ih =>
    have hstart : store.Physical (startOf here target) := by
      unfold startOf
      split
      · exact .root
      · exact hhere
    refine ih hstart (List.forall_mem_append.2 ⟨?_, (List.forall_mem_cons.1 hnames).2⟩)
    exact fun name hname => Path.isName_of_mem_steps hname
  | entry directory entry found solid _ ih =>
    obtain ⟨hname, hrest⟩ := List.forall_mem_cons.1 hnames
    exact ih (.entry hhere directory hname entry found solid) hrest

/-! ## The path of a location -/

/-- The path of a location spells the names that lead to it. -/
theorem names_pathOf (h : ∀ name ∈ here, Path.IsName name) : (pathOf here).names = here.reverse := by
  have hspelled : Path.names (here.reverse.flatMap (Path.slash :: ·)) = here.reverse := by
    induction here with
    | nil => simp
    | cons name parent ih =>
      obtain ⟨hname, hparent⟩ := List.forall_mem_cons.1 h
      rw [List.reverse_cons, List.flatMap_append, List.flatMap_singleton, Path.names_append_slash,
        ih hparent, hname.names_eq]
  cases here with
  | nil => decide
  | cons name parent => exact hspelled

theorem isAbsolute_pathOf (here : Location) : (pathOf here).isAbsolute = true := by
  have hspelled : ∀ names : List Name, names ≠ [] →
      Path.isAbsolute (names.flatMap (Path.slash :: ·)) = true := by
    intro names hnames
    cases names with
    | nil => contradiction
    | cons name names => simp [Path.isAbsolute]
  cases here with
  | nil => rfl
  | cons name parent => exact hspelled _ (by simp)

theorem pathOf_ne_nil (here : Location) : pathOf here ≠ [] := by
  intro hempty
  have habsolute := isAbsolute_pathOf here
  rw [hempty] at habsolute
  cases habsolute

theorem one_le_length_pathOf (here : Location) : 1 ≤ (pathOf here).length :=
  List.length_pos_iff.2 (pathOf_ne_nil here)

/-- The way up is shorter. -/
theorem length_pathOf_tail (here : Location) : (pathOf here.tail).length ≤ (pathOf here).length := by
  rcases here with _ | ⟨name, _ | ⟨next, parent⟩⟩ <;> simp [pathOf]

/-- The path of what is reached has been asked for, or is the beginning of one that has been. -/
theorem Reaches.length_pathOf_le (h : store.Reaches here names there followed longest) :
    (pathOf there).length ≤ max (pathOf here).length longest := by
  induction h with
  | done => exact le_max_left _ _
  | dot _ _ ih => exact ih
  | @dotDot here _ _ _ _ _ _ ih =>
    have hup := length_pathOf_tail here
    omega
  | @link here name _ _ _ _ target _ _ _ _ ih =>
    have hstart : (pathOf (startOf here target)).length ≤ (pathOf here).length := by
      unfold startOf
      split
      · exact one_le_length_pathOf here
      · exact le_rfl
    omega
  | entry _ _ _ _ _ ih => omega

/-- No link has a NUL character in its target.  The system makes no such link, since a target is a path
and the system takes no path with a NUL character. -/
def NulFree (store : FileStore) : Prop :=
  ∀ location target, store.find? location = some (.link target) → target.hasNul = false

theorem nulFree_empty : FileStore.empty.NulFree := by
  intro location target h
  cases location with
  | nil => cases h
  | cons name parent => cases h

theorem NulFree.put {node : Node} (h : store.NulFree) (location : Location)
    (hnode : ∀ target, node = .link target → target.hasNul = false) :
    (store.put location node).NulFree := by
  intro other target hfind
  by_cases hsame : location = other
  · by_cases hroot : other = []
    · subst hroot
      cases hfind
    · rw [find?_put hroot, if_pos hsame, Option.some_inj] at hfind
      exact hnode target hfind
  · rw [find?_put_of_ne hsame] at hfind
    exact h other target hfind

theorem hasNul_eq_false_iff {path : Path} : path.hasNul = false ↔ 0 ∉ path := by
  simp [Path.hasNul]

theorem nul_not_mem_of_mem_steps {path : Path} (h : path.hasNul = false) :
    ∀ name ∈ path.steps, (0 : UInt8) ∉ name := by
  intro name hname hnul
  rcases Path.mem_steps hname with hname | rfl
  · have hpart := (Path.isName_and_isInfix_of_mem_names hname).2
    exact hasNul_eq_false_iff.1 h (hpart.subset hnul)
  · exact absurd hnul (by decide)

/-- Where no link has a NUL character in its target, none comes in on the way. -/
theorem Reaches.nul_not_mem (h : store.Reaches here names there followed longest)
    (hstore : store.NulFree) (hhere : ∀ name ∈ here, (0 : UInt8) ∉ name)
    (hnames : ∀ name ∈ names, (0 : UInt8) ∉ name) : ∀ name ∈ there, (0 : UInt8) ∉ name := by
  induction h with
  | done => exact hhere
  | dot _ _ ih => exact ih hhere (List.forall_mem_cons.1 hnames).2
  | dotDot _ _ ih =>
    exact ih (fun name hname => hhere name (List.mem_of_mem_tail hname))
      (List.forall_mem_cons.1 hnames).2
  | @link here _ _ _ _ _ target _ _ found _ ih =>
    have hstart : ∀ name ∈ startOf here target, (0 : UInt8) ∉ name := by
      unfold startOf
      split
      · simp
      · exact hhere
    refine ih hstart (List.forall_mem_append.2 ⟨?_, (List.forall_mem_cons.1 hnames).2⟩)
    exact nul_not_mem_of_mem_steps (hstore _ _ found)
  | entry _ _ _ _ _ ih =>
    obtain ⟨hname, hrest⟩ := List.forall_mem_cons.1 hnames
    exact ih (List.forall_mem_cons.2 ⟨hname, hhere⟩) hrest

theorem hasNul_pathOf (h : ∀ name ∈ here, (0 : UInt8) ∉ name) : (pathOf here).hasNul = false := by
  have hspelled : ∀ names : List Name, (∀ name ∈ names, (0 : UInt8) ∉ name) →
      0 ∉ names.flatMap (Path.slash :: ·) := by
    intro names hnames hnul
    obtain ⟨name, hname, hmem⟩ := List.mem_flatMap.1 hnul
    rcases List.mem_cons.1 hmem with hslash | hnul
    · exact absurd hslash (by decide)
    · exact hnames name hname hnul
  rw [hasNul_eq_false_iff]
  cases here with
  | nil => decide
  | cons name parent => exact hspelled _ fun name hname => h name (List.mem_reverse.1 hname)

end FileStore

end LineShell
