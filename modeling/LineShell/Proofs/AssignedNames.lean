import LineShell.Proofs.BuiltinEffects
import LineShell.Proofs.SinglePass

/-!
# Names that can be assigned and referred to

Whoever assigns a variable has its name checked as a whole, and whoever refers to one has its name
read out of a text.  These are the same names: a text is a valid name exactly if a dollar sign in front
of it makes a reference to it, whatever the variables are (`isValidName_iff_forall_substitute`).  In one
direction this is the longest match.  In the other, no word refers to a text that is no name, so what
the word becomes cannot depend on a value that is bound to it.

Therefore whatever `export` or `local` has set can be read back, and the other names keep what they
stood for.  A local value is read back only where no exported one is in front of it.
-/

namespace LineShell

open LineShell.Action

/-! ## Names -/

theorem not_mem_of_isValidName {name : Text} (h : isValidName name = true) {c : Char}
    (hc : isNameChar c = false) : c ∉ name := by
  intro hmem
  rw [(isValidName_iff.1 h).2 c hmem] at hc
  cases hc

theorem equals_not_mem_of_isValidName {name : Text} (h : isValidName name = true) : '=' ∉ name :=
  not_mem_of_isValidName h (by decide)

namespace Scope

variable {name : Text}

/-- A dollar sign and a name are one reference. -/
theorem substitute_dollar (scope : Scope) (h : isValidName name = true) :
    scope.substitute ('$' :: name) = (scope.lookup name).getD [] := by
  have hlongest : Text.LongestReference ('$' :: name) name [] :=
    Text.longestReference_iff.2 ⟨⟨by rw [List.append_nil], h⟩, nofun⟩
  rw [substitute_of_longestReference hlongest, substitute_nil, List.append_nil, getD_lookup]

end Scope

/-- A text that is no name makes no reference to itself, since its value would not count. -/
theorem isValidName_of_forall_substitute {name : Text}
    (h : ∀ scope : Scope, scope.substitute ('$' :: name) = (scope.lookup name).getD []) :
    isValidName name = true := by
  by_contra hinvalid
  let unbound : Scope := { exported := {}, locals := {} }
  let bound : Scope := { exported := {}, locals := OrderedMap.set {} name ['x'] }
  have hsame : bound.substitute ('$' :: name) = unbound.substitute ('$' :: name) := by
    refine Scope.substitute_congr fun other hrefers => ?_
    have hne : name ≠ other := by
      rintro rfl
      exact hinvalid hrefers.isValidName
    exact OrderedMap.get?_set_of_ne hne
  rw [h bound, h unbound] at hsame
  have hvalue : bound.lookup name = some ['x'] := OrderedMap.get?_set_self {} name ['x']
  rw [hvalue] at hsame
  cases hsame

/-- The valid names are those that a dollar sign refers to. -/
theorem isValidName_iff_forall_substitute {name : Text} :
    isValidName name = true ↔
      ∀ scope : Scope, scope.substitute ('$' :: name) = (scope.lookup name).getD [] :=
  ⟨fun h scope => scope.substitute_dollar h, isValidName_of_forall_substitute⟩

/-! ## Assignments -/

namespace Text

variable {front rest : Text} {c : Char}

/-- The first occurrence of a character divides a text. -/
theorem takeWhile_bne_append (h : c ∉ front) : (front ++ c :: rest).takeWhile (· != c) = front := by
  rw [List.takeWhile_append_of_pos fun d hd => bne_iff_ne.2 (ne_of_mem_of_not_mem hd h)]
  simp

theorem dropWhile_bne_append (h : c ∉ front) :
    (front ++ c :: rest).dropWhile (· != c) = c :: rest := by
  rw [List.dropWhile_append_of_pos fun d hd => bne_iff_ne.2 (ne_of_mem_of_not_mem hd h)]
  simp

end Text

namespace Builtin

variable {assignment name value : Text}

theorem splitAssignment_append (h : '=' ∉ name) (value : Text) :
    splitAssignment (name ++ '=' :: value) = some (name, value) := by
  unfold splitAssignment
  rw [Text.dropWhile_bne_append h, Text.takeWhile_bne_append h]

theorem splitAssignment_of_not_mem (h : '=' ∉ assignment) : splitAssignment assignment = none := by
  have hall : ∀ c ∈ assignment, (c != '=') = true :=
    fun c hc => bne_iff_ne.2 (ne_of_mem_of_not_mem hc h)
  unfold splitAssignment
  rw [List.dropWhile_eq_nil_iff.2 hall]

/-- The first equals sign divides an assignment. -/
theorem splitAssignment_eq_some_iff :
    splitAssignment assignment = some (name, value) ↔
      '=' ∉ name ∧ assignment = name ++ '=' :: value := by
  constructor
  · intro h
    have hmem : '=' ∈ assignment := by
      by_contra hnone
      rw [splitAssignment_of_not_mem hnone] at h
      cases h
    obtain ⟨name', value', rfl, hname⟩ := List.eq_append_cons_of_mem hmem
    rw [splitAssignment_append hname] at h
    cases h
    exact ⟨hname, rfl⟩
  · rintro ⟨hname, rfl⟩
    exact splitAssignment_append hname value

theorem checkName_eq_ok_iff {builtin : Builtin} {u : Unit} :
    checkName builtin name = .ok u ↔ isValidName name = true := by
  unfold checkName
  split
  · next hvalid => exact iff_of_true rfl hvalid
  · next hinvalid => exact iff_of_false nofun hinvalid

/-- What `export` takes. -/
theorem exportAssignment_eq_ok_iff :
    exportAssignment assignment = .ok (name, value) ↔
      isValidName name = true ∧ assignment = name ++ '=' :: value := by
  unfold exportAssignment
  constructor
  · intro h
    split at h
    · cases h
    next found hsplit =>
    obtain ⟨_, hcheck, hfound⟩ := except_bind_eq_ok.1 h
    cases hfound
    exact ⟨checkName_eq_ok_iff.1 hcheck, (splitAssignment_eq_some_iff.1 hsplit).2⟩
  · rintro ⟨hvalid, rfl⟩
    rw [splitAssignment_append (equals_not_mem_of_isValidName hvalid)]
    exact except_bind_eq_ok.2 ⟨(), checkName_eq_ok_iff.2 hvalid, rfl⟩

/-- What `local` takes. -/
theorem localAssignment_eq_ok_iff :
    localAssignment assignment = .ok (name, value) ↔
      isValidName name = true ∧
        (assignment = name ++ '=' :: value ∨ assignment = name ∧ value = []) := by
  unfold localAssignment
  constructor
  · intro h
    obtain ⟨_, hcheck, hfound⟩ := except_bind_eq_ok.1 h
    cases hsplit : splitAssignment assignment with
    | none =>
      rw [hsplit] at hcheck hfound
      cases hfound
      exact ⟨checkName_eq_ok_iff.1 hcheck, .inr ⟨rfl, rfl⟩⟩
    | some found =>
      rw [hsplit] at hcheck hfound
      cases hfound
      exact ⟨checkName_eq_ok_iff.1 hcheck, .inl (splitAssignment_eq_some_iff.1 hsplit).2⟩
  · rintro ⟨hvalid, hassignment⟩
    have hname := equals_not_mem_of_isValidName hvalid
    have hsplit : (splitAssignment assignment).getD (assignment, []) = (name, value) := by
      rcases hassignment with rfl | ⟨rfl, rfl⟩
      · rw [splitAssignment_append hname, Option.getD_some]
      · rw [splitAssignment_of_not_mem hname, Option.getD_none]
    rw [hsplit]
    exact except_bind_eq_ok.2 ⟨(), checkName_eq_ok_iff.2 hvalid, rfl⟩

end Builtin

/-! ## Reading back -/

section ReadingBack

variable {state : State} {status : Status} {after : Session} {assignment : Text}

/-- An exported value counts for its name, whatever is local. -/
theorem Call.Effect.lookup_exportVariable
    (h : Effect state (.exportVariable assignment) status after) :
    ∃ name value, Builtin.exportAssignment assignment = .ok (name, value) ∧
      ∀ other, after.scope.lookup other =
        if name = other then some value else state.session.scope.lookup other := by
  cases h with
  | @exportVariable _ name value valid =>
    refine ⟨name, value, valid, fun other => ?_⟩
    change ((state.session.environment.exported.set name value).get? other).or
      (state.session.locals.get? other) = _
    rw [OrderedMap.get?_set]
    split <;> rfl

/-- A local value counts for its name unless the name is exported. -/
theorem Call.Effect.lookup_localVariable
    (h : Effect state (.localVariable assignment) status after) :
    ∃ name value, Builtin.localAssignment assignment = .ok (name, value) ∧
      ∀ other, after.scope.lookup other =
        if name = other then some ((state.session.environment.exported.get? name).getD value)
        else state.session.scope.lookup other := by
  cases h with
  | @localVariable _ name value valid =>
    refine ⟨name, value, valid, fun other => ?_⟩
    change (state.session.environment.exported.get? other).or
      ((state.session.locals.set name value).get? other) = _
    rw [OrderedMap.get?_set]
    split
    · next hname =>
      subst hname
      cases state.session.environment.exported.get? name <;> rfl
    · rfl

/-- Only the name that was set stands for something else than before. -/
theorem substitute_dollar_of_lookup {before after : Scope} {name value : Text}
    (hvalid : isValidName name = true)
    (h : ∀ other, after.lookup other = if name = other then some value else before.lookup other) :
    after.substitute ('$' :: name) = value ∧
      ∀ other, isValidName other = true → other ≠ name →
        after.substitute ('$' :: other) = before.substitute ('$' :: other) := by
  constructor
  · rw [after.substitute_dollar hvalid, h, if_pos rfl, Option.getD_some]
  · intro other hother hne
    rw [after.substitute_dollar hother, before.substitute_dollar hother, h, if_neg hne.symm]

end ReadingBack

/-! ## Success -/

namespace Builtin

variable {assignment name value : Text}

/-- `local` succeeds with whatever it takes. -/
theorem run_localVariable (h : localAssignment assignment = .ok (name, value)) (outputs : Outputs)
    (state : State) :
    (Call.localVariable assignment).run outputs state =
      .ok 0 { state with
        session := { state.session with locals := state.session.locals.set name value } } := by
  have hcheck : check (fun _ => localAssignment assignment) state = .ok (name, value) state :=
    check_eq_ok.2 ⟨h, rfl⟩
  change runLocal assignment state = _
  unfold runLocal
  rw [bind_of_eq_ok hcheck]
  rfl

/-- So does `export`, if it can warn of a search path. -/
theorem exists_run_exportVariable {outputs : Outputs}
    (hstderr : ∀ data world, ∃ after, outputs.stderr data world = .ok () after)
    (h : exportAssignment assignment = .ok (name, value)) (state : State) :
    ∃ last, (Call.exportVariable assignment).run outputs state = .ok 0 last := by
  obtain ⟨after, hwarned⟩ := hstderr (searchPathWarning value) state.world
  have hemit : emit outputs.stderr (searchPathWarning value) state =
      .ok () { state with world := after } := onWorld_eq_ok.2 ⟨after, hwarned, rfl⟩
  have hcheck : check (fun _ => exportAssignment assignment) state = .ok (name, value) state :=
    check_eq_ok.2 ⟨h, rfl⟩
  change ∃ last, runExport outputs assignment state = .ok 0 last
  unfold runExport
  rw [bind_of_eq_ok hcheck]
  dsimp only
  rw [get_bind]
  split
  · exact ⟨_, bind_eq_ok.2 ⟨(), _, hemit, change_eq_ok.2 ⟨rfl, rfl⟩⟩⟩
  · exact ⟨_, change_eq_ok.2 ⟨rfl, rfl⟩⟩

end Builtin

/-- The names that can be assigned are those that can be referred to.  A name is valid exactly if a
dollar sign in front of it stands for its value, whatever the variables are.  A valid name can be
assigned by `local` and, if it can write its warnings, by `export`, and they succeed with no other
name.  After `export` the name stands for the value that was assigned, and after `local` it does
unless it is exported, in which case it stands for the exported value.  All other names stand for what
they stood for. -/
theorem assigned_names_referable :
    (∀ name, isValidName name = true ↔
      ∀ scope : Scope, scope.substitute ('$' :: name) = (scope.lookup name).getD []) ∧
    (∀ (outputs : Outputs) (state : State) (name value : Text), isValidName name = true →
      (∃ last, (Call.localVariable (name ++ '=' :: value)).run outputs state = .ok 0 last) ∧
      (∃ last, (Call.localVariable name).run outputs state = .ok 0 last) ∧
      ((∀ data world, ∃ after, outputs.stderr data world = .ok () after) →
        ∃ last, (Call.exportVariable (name ++ '=' :: value)).run outputs state = .ok 0 last)) ∧
    (∀ (outputs : Outputs) (assignment : Text) (state last : State) (status : Status),
      (Call.exportVariable assignment).run outputs state = .ok status last →
        ∃ name value, isValidName name = true ∧ assignment = name ++ '=' :: value ∧
          last.session.scope.substitute ('$' :: name) = value ∧
          ∀ other, isValidName other = true → other ≠ name →
            last.session.scope.substitute ('$' :: other) =
              state.session.scope.substitute ('$' :: other)) ∧
    ∀ (outputs : Outputs) (assignment : Text) (state last : State) (status : Status),
      (Call.localVariable assignment).run outputs state = .ok status last →
        ∃ name value, isValidName name = true ∧
          (assignment = name ++ '=' :: value ∨ assignment = name ∧ value = []) ∧
          last.session.scope.substitute ('$' :: name) =
            (state.session.environment.exported.get? name).getD value ∧
          ∀ other, isValidName other = true → other ≠ name →
            last.session.scope.substitute ('$' :: other) =
              state.session.scope.substitute ('$' :: other) := by
  refine ⟨fun name => isValidName_iff_forall_substitute, ?_, ?_, ?_⟩
  · intro outputs state name value hvalid
    have hassigned : Builtin.localAssignment (name ++ '=' :: value) = .ok (name, value) :=
      Builtin.localAssignment_eq_ok_iff.2 ⟨hvalid, .inl rfl⟩
    have hempty : Builtin.localAssignment name = .ok (name, []) :=
      Builtin.localAssignment_eq_ok_iff.2 ⟨hvalid, .inr ⟨rfl, rfl⟩⟩
    have hexported : Builtin.exportAssignment (name ++ '=' :: value) = .ok (name, value) :=
      Builtin.exportAssignment_eq_ok_iff.2 ⟨hvalid, rfl⟩
    exact ⟨⟨_, Builtin.run_localVariable hassigned outputs state⟩,
      ⟨_, Builtin.run_localVariable hempty outputs state⟩,
      fun hstderr => Builtin.exists_run_exportVariable hstderr hexported state⟩
  · intro outputs assignment state last status hrun
    obtain ⟨name, value, hassignment, hlookup⟩ :=
      (Call.effect_of_run_ok hrun).lookup_exportVariable
    obtain ⟨hvalid, hwritten⟩ := Builtin.exportAssignment_eq_ok_iff.1 hassignment
    exact ⟨name, value, hvalid, hwritten, substitute_dollar_of_lookup hvalid hlookup⟩
  · intro outputs assignment state last status hrun
    obtain ⟨name, value, hassignment, hlookup⟩ :=
      (Call.effect_of_run_ok hrun).lookup_localVariable
    obtain ⟨hvalid, hwritten⟩ := Builtin.localAssignment_eq_ok_iff.1 hassignment
    exact ⟨name, value, hvalid, hwritten, substitute_dollar_of_lookup hvalid hlookup⟩

/-- A value with an equals sign and a dollar sign in it is read back as it is, and an exported value
hides the local one. -/
theorem assigned_names_referable_hidden :
    let outputs := Outputs.ofStreams .ofConsole
    let session : Session := { environment := { directory := [Path.slash] } }
    let state : State := { session, world := { store := .empty, console := { kind := .captured } } }
    let exported : State := { state with session := session.exporting ['A'] "$B=2".toList false }
    ∃ hidden, isValidName ['A'] = true ∧
      (Call.exportVariable "A=$B=2".toList).run outputs state = .ok 0 exported ∧
      (Call.localVariable ['A']).run outputs exported = .ok 0 hidden ∧
      exported.session.scope.substitute "$A".toList = "$B=2".toList ∧
      hidden.session.scope.substitute "$A".toList = "$B=2".toList := by
  intro outputs session state exported
  obtain ⟨-, hassignable, hexport, hlocal⟩ := assigned_names_referable
  have hname : isValidName ['A'] = true := by decide
  have hexported : (Call.exportVariable "A=$B=2".toList).run outputs state = .ok 0 exported := rfl
  obtain ⟨hidden, hhidden⟩ := (hassignable outputs exported ['A'] [] hname).2.1
  refine ⟨hidden, hname, hexported, hhidden, ?_, ?_⟩
  · obtain ⟨name, value, hvalid, hwritten, hread, -⟩ := hexport _ _ _ _ _ hexported
    have hfound : Builtin.exportAssignment "A=$B=2".toList = .ok (['A'], "$B=2".toList) := rfl
    cases hfound.symm.trans (Builtin.exportAssignment_eq_ok_iff.2 ⟨hvalid, hwritten⟩)
    exact hread
  · obtain ⟨name, value, hvalid, hwritten, hread, -⟩ := hlocal _ _ _ _ _ hhidden
    have hfound : Builtin.localAssignment ['A'] = .ok (['A'], []) := rfl
    cases hfound.symm.trans (Builtin.localAssignment_eq_ok_iff.2 ⟨hvalid, hwritten⟩)
    exact hread

end LineShell
