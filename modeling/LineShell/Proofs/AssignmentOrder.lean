import LineShell.Variables
import Mathlib.Data.Finset.Card
import Mathlib.Data.List.Basic

/-!
# What a series of assignments leaves in a map

A new map is filled by assignments, of known keys and of new ones in any order.  What it then holds
is read off the assignments alone: the keys stand in the order of their first assignments, each of
them once, and each has the value of its last one.

The keys being distinct is the invariant behind this.  `get?` stops at the first entry with a key and
`size` counts entries, so both tell the truth about the assignments only because no key has two.
-/

namespace LineShell

namespace OrderedMap

variable {κ ν : Type}

/-- The last of the assignments of the key gave it the value. -/
def LastAssigned (assignments : List (κ × ν)) (key : κ) (value : ν) : Prop :=
  ∃ before after, assignments = before ++ (key, value) :: after ∧ key ∉ after.map (·.1)

theorem lastAssigned_concat_iff {assignments : List (κ × ν)} {key key' : κ} {value value' : ν} :
    LastAssigned (assignments ++ [(key', value')]) key value ↔
      key' = key ∧ value' = value ∨ key' ≠ key ∧ LastAssigned assignments key value := by
  constructor
  · rintro ⟨before, after, hsplit, hlast⟩
    obtain rfl | ⟨after, ⟨k, v⟩, rfl⟩ := after.eq_nil_or_concat
    · obtain ⟨-, hentry⟩ := List.append_inj' hsplit rfl
      obtain ⟨rfl, rfl⟩ : key' = key ∧ value' = value := by simpa using hentry
      exact .inl ⟨rfl, rfl⟩
    · rw [List.concat_eq_append, ← List.cons_append, ← List.append_assoc] at hsplit
      obtain ⟨hfront, hentry⟩ := List.append_inj' hsplit rfl
      obtain ⟨rfl, rfl⟩ : key' = k ∧ value' = v := by simpa using hentry
      simp only [List.concat_eq_append, List.map_append, List.map_cons, List.map_nil,
        List.mem_append, List.mem_singleton, not_or] at hlast
      exact .inr ⟨Ne.symm hlast.2, before, after, hfront, hlast.1⟩
  · rintro (⟨rfl, rfl⟩ | ⟨hne, before, after, rfl, hlast⟩)
    · exact ⟨assignments, [], rfl, List.not_mem_nil⟩
    · refine ⟨before, after ++ [(key', value')], by simp, ?_⟩
      simpa using ⟨by simpa using hlast, Ne.symm hne⟩

variable [DecidableEq κ] {m : OrderedMap κ ν} {key : κ} {value : ν}

/-! ## Keys, values and size of one map -/

theorem get?_eq_none_iff : m.get? key = none ↔ key ∉ m.keys := by
  obtain ⟨entries⟩ := m
  unfold get? keys
  induction entries with
  | nil => simp [lookup]
  | cons entry rest ih =>
    obtain ⟨k, v⟩ := entry
    by_cases hk : k = key
    · simp [lookup, hk]
    · simpa [lookup, hk, Ne.symm hk] using ih

/-- Behind the entry that is found there is no other one with the key. -/
theorem mem_toList_iff_get? (hkeys : m.keys.Nodup) :
    (key, value) ∈ m.toList ↔ m.get? key = some value := by
  obtain ⟨entries⟩ := m
  unfold keys at hkeys
  unfold toList get?
  induction entries with
  | nil => simp [lookup]
  | cons entry rest ih =>
    obtain ⟨k, v⟩ := entry
    obtain ⟨hnew, hrest⟩ := List.nodup_cons.1 hkeys
    by_cases hk : k = key
    · subst hk
      have habsent : (k, value) ∉ rest := fun h => hnew (List.mem_map_of_mem (f := (·.1)) h)
      simp [lookup, habsent, eq_comm]
    · simpa [lookup, hk, Ne.symm hk] using ih hrest

theorem size_eq_card (hkeys : m.keys.Nodup) : m.size = m.keys.toFinset.card := by
  rw [List.toFinset_card_of_nodup hkeys]
  exact (List.length_map _).symm

/-! ## Two assignments -/

theorem assign_comm {a b : κ} (hne : a ≠ b) (x y : ν) {entries : List (κ × ν)}
    (ha : a ∈ entries.map (·.1)) :
    assign b y (assign a x entries) = assign a x (assign b y entries) := by
  induction entries with
  | nil => cases ha
  | cons entry rest ih =>
    obtain ⟨k, v⟩ := entry
    by_cases hka : k = a
    · simp [assign, hka, hne]
    · have hrest : a ∈ rest.map (·.1) := (List.mem_cons.1 ha).resolve_left (Ne.symm hka)
      by_cases hkb : k = b
      · simp [assign, hkb, hne.symm]
      · simp [assign, hka, hkb, ih hrest]

/-- Assignments of two keys commute unless both are new: then their order is that of the keys. -/
theorem set_comm_iff {a b : κ} (hne : a ≠ b) (x y : ν) :
    (m.set a x).set b y = (m.set b y).set a x ↔ a ∈ m.keys ∨ b ∈ m.keys := by
  constructor
  · intro h
    by_contra habsent
    obtain ⟨ha, hb⟩ := not_or.1 habsent
    have hkeys : ((m.set a x).set b y).keys = ((m.set b y).set a x).keys := congrArg keys h
    simp [keys_set, ha, hb, hne, hne.symm] at hkeys
  · rintro (ha | hb)
    · exact congrArg mk (assign_comm hne x y ha)
    · exact congrArg mk (assign_comm hne.symm y x hb).symm

/-! ## A series of assignments -/

theorem setAll_concat (m : OrderedMap κ ν) (assignments : List (κ × ν)) (assignment : κ × ν) :
    m.setAll (assignments ++ [assignment]) =
      (m.setAll assignments).set assignment.1 assignment.2 :=
  List.foldl_append ..

theorem mem_keys_set {key' : κ} : key ∈ (m.set key' value).keys ↔ key ∈ m.keys ∨ key = key' := by
  rw [keys_set]
  split
  · next hknown => exact ⟨.inl, fun h => h.elim id fun heq => heq ▸ hknown⟩
  · simp

theorem mem_keys_setAll (assignments : List (κ × ν)) :
    key ∈ (setAll {} assignments).keys ↔ key ∈ assignments.map (·.1) := by
  induction assignments using List.reverseRecOn with
  | nil => exact Iff.rfl
  | append_singleton assignments assignment ih =>
    rw [setAll_concat, mem_keys_set, ih]
    simp

/-- A further assignment changes no first assignment, and a new key's is behind them all. -/
theorem keys_setAll_ordered (assignments : List (κ × ν)) :
    (setAll {} assignments).keys.Pairwise fun a b =>
      (assignments.map (·.1)).idxOf a < (assignments.map (·.1)).idxOf b := by
  induction assignments using List.reverseRecOn with
  | nil => exact .nil
  | append_singleton assignments assignment ih =>
    obtain ⟨key, value⟩ := assignment
    rw [setAll_concat, keys_set, List.map_append]
    have hfirst : ∀ k ∈ (setAll {} assignments).keys,
        (assignments.map (·.1) ++ [key]).idxOf k = (assignments.map (·.1)).idxOf k :=
      fun k hk => List.idxOf_append_of_mem ((mem_keys_setAll assignments).1 hk)
    have hkept : (setAll {} assignments).keys.Pairwise fun a b =>
        (assignments.map (·.1) ++ [key]).idxOf a < (assignments.map (·.1) ++ [key]).idxOf b :=
      ih.imp_of_mem fun ha hb h => by rwa [hfirst _ ha, hfirst _ hb]
    split
    · exact hkept
    · next hnew =>
      refine List.pairwise_append.2 ⟨hkept, List.pairwise_singleton .., fun k hk k' hk' => ?_⟩
      obtain rfl : k' = key := List.mem_singleton.1 hk'
      have hk := (mem_keys_setAll assignments).1 hk
      have hbehind : k' ∉ assignments.map (·.1) := fun h => hnew ((mem_keys_setAll assignments).2 h)
      calc (assignments.map (·.1) ++ [k']).idxOf k
          = (assignments.map (·.1)).idxOf k := List.idxOf_append_of_mem hk
        _ < (assignments.map (·.1)).length := List.idxOf_lt_length_of_mem hk
        _ ≤ (assignments.map (·.1) ++ [k']).idxOf k' := by
          rw [List.idxOf_append_of_notMem hbehind]
          exact Nat.le_add_right ..

theorem nodup_keys_setAll (assignments : List (κ × ν)) : (setAll {} assignments).keys.Nodup :=
  (keys_setAll_ordered assignments).imp fun {a b} hlt (heq : a = b) => hlt.ne (by rw [heq])

theorem get?_setAll_eq_some_iff (assignments : List (κ × ν)) :
    (setAll {} assignments).get? key = some value ↔ LastAssigned assignments key value := by
  induction assignments using List.reverseRecOn with
  | nil => simp [setAll, get?, lookup, LastAssigned]
  | append_singleton assignments assignment ih =>
    obtain ⟨key', value'⟩ := assignment
    rw [setAll_concat, get?_set, lastAssigned_concat_iff, ← ih]
    by_cases hkey : key' = key
    · simp [hkey]
    · simp [hkey]

/-- The map is what the assignments leave of a new one. -/
structure HoldsAssigned (assignments : List (κ × ν)) (m : OrderedMap κ ν) : Prop where
  once : ∀ key, (m.toList.map (·.1)).count key = if key ∈ assignments.map (·.1) then 1 else 0
  ordered : (m.toList.map (·.1)).Pairwise fun a b =>
    (assignments.map (·.1)).idxOf a < (assignments.map (·.1)).idxOf b
  listed : ∀ key value, (key, value) ∈ m.toList ↔ LastAssigned assignments key value
  found : ∀ key value, m.get? key = some value ↔ LastAssigned assignments key value
  missing : ∀ key, m.get? key = none ↔ key ∉ assignments.map (·.1)
  counted : m.size = (assignments.map (·.1)).toFinset.card

/-- A map lists each key that was assigned once, by first assignment and with the value of the last
one; it finds just these values, and its size is the number of different keys.  Two assignments of
different keys to any map can change places unless both keys are new to it. -/
theorem setAll_holdsAssigned_and_set_comm (assignments : List (κ × ν)) :
    HoldsAssigned assignments (setAll {} assignments) ∧
      ∀ (m : OrderedMap κ ν) (a b : κ) (x y : ν), a ≠ b →
        ((m.set a x).set b y = (m.set b y).set a x ↔ a ∈ m.keys ∨ b ∈ m.keys) := by
  have hnodup := nodup_keys_setAll assignments
  refine ⟨⟨fun key => ?_, keys_setAll_ordered assignments, fun key value => ?_, fun key value => ?_,
    fun key => ?_, ?_⟩, fun m a b x y hne => set_comm_iff hne x y⟩
  · exact hnodup.count.trans (if_congr (mem_keys_setAll assignments) rfl rfl)
  · rw [mem_toList_iff_get? hnodup, get?_setAll_eq_some_iff]
  · exact get?_setAll_eq_some_iff assignments
  · rw [get?_eq_none_iff, mem_keys_setAll]
  · rw [size_eq_card hnodup]
    exact congrArg Finset.card (Finset.ext fun key => by simp [mem_keys_setAll])

/-- A variable that is assigned twice stays in front of one that came between. -/
theorem setAll_holdsAssigned_and_set_comm_reassigned :
    let assignments : List (Text × Text) := [(['b'], ['1']), (['a'], ['2']), (['b'], ['3'])]
    let locals : Variables := setAll {} assignments
    locals.toList = [(['b'], ['3']), (['a'], ['2'])] ∧ locals.get? ['b'] = some ['3'] ∧
      locals.get? ['B'] = none ∧ locals.size = 2 ∧ ['a'] ≠ ['b'] ∧
      (locals.set ['a'] ['4']).set ['b'] ['5'] = (locals.set ['b'] ['5']).set ['a'] ['4'] := by
  intro assignments locals
  obtain ⟨holds, comm⟩ := setAll_holdsAssigned_and_set_comm assignments
  have hlast : LastAssigned assignments ['b'] ['3'] := ⟨assignments.take 2, [], rfl, by decide⟩
  refine ⟨by decide, (holds.found ['b'] ['3']).2 hlast, (holds.missing ['B']).2 (by decide),
    holds.counted.trans (by decide), by decide, ?_⟩
  exact (comm locals ['a'] ['b'] ['4'] ['5'] (by decide)).2 (.inl (by decide))

end OrderedMap

end LineShell
