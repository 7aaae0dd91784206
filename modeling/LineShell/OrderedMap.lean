/-!
# Maps that remember the order of first assignment

An `OrderedMap` is a list of keys with their values.  Assigning a new key puts it at the end;
assigning a key again changes its value where it stands.  Two views pin the operations down:
`get?` (`get?_set`) and the list of keys (`keys_set`).
-/

namespace LineShell

/-- Keys with their values, in the order in which the keys were first assigned. -/
structure OrderedMap (κ ν : Type) where
  entries : List (κ × ν) := []
  deriving DecidableEq, Repr

namespace OrderedMap

variable {κ ν : Type}

def empty : OrderedMap κ ν := {}

def toList (m : OrderedMap κ ν) : List (κ × ν) := m.entries

def keys (m : OrderedMap κ ν) : List κ := m.entries.map (·.1)

def size (m : OrderedMap κ ν) : Nat := m.entries.length

def isEmpty (m : OrderedMap κ ν) : Bool := m.entries.isEmpty

/-- Keeps the entries whose key passes the test. -/
def filterKeys (m : OrderedMap κ ν) (p : κ → Bool) : OrderedMap κ ν :=
  ⟨m.entries.filter fun entry => p entry.1⟩

variable [DecidableEq κ]

/-- The value of the first entry with the key. -/
def lookup (key : κ) : List (κ × ν) → Option ν
  | [] => none
  | (k, v) :: rest => if k = key then some v else lookup key rest

/-- Replaces the value of the key where it stands, or puts it at the end. -/
def assign (key : κ) (value : ν) : List (κ × ν) → List (κ × ν)
  | [] => [(key, value)]
  | (k, v) :: rest => if k = key then (key, value) :: rest else (k, v) :: assign key value rest

def get? (m : OrderedMap κ ν) (key : κ) : Option ν := lookup key m.entries

def set (m : OrderedMap κ ν) (key : κ) (value : ν) : OrderedMap κ ν :=
  ⟨assign key value m.entries⟩

def setAll (m : OrderedMap κ ν) (entries : List (κ × ν)) : OrderedMap κ ν :=
  entries.foldl (fun m entry => m.set entry.1 entry.2) m

theorem lookup_assign (key key' : κ) (value : ν) (entries : List (κ × ν)) :
    lookup key' (assign key value entries) =
      if key = key' then some value else lookup key' entries := by
  induction entries with
  | nil => simp [assign, lookup]
  | cons entry rest ih =>
    obtain ⟨k, v⟩ := entry
    by_cases hk : k = key
    · subst hk
      simp only [assign, if_true, lookup]
      split <;> simp_all
    · simp only [assign, hk, if_false, lookup, ih]
      by_cases hk' : k = key'
      · subst hk'
        simp [Ne.symm hk]
      · simp [hk']

theorem lookup_isSome (key : κ) (entries : List (κ × ν)) :
    (lookup key entries).isSome = true ↔ key ∈ entries.map (·.1) := by
  induction entries with
  | nil => simp [lookup]
  | cons entry rest ih =>
    obtain ⟨k, v⟩ := entry
    by_cases hk : k = key
    · simp [lookup, hk]
    · simp [lookup, hk, ih, Ne.symm hk]

/-- The keys are those that have a value. -/
theorem mem_keys {m : OrderedMap κ ν} {key : κ} : key ∈ m.keys ↔ (m.get? key).isSome = true :=
  (lookup_isSome key m.entries).symm

/-- An assigned key has its value, and every other key keeps its own. -/
theorem get?_set (m : OrderedMap κ ν) (key key' : κ) (value : ν) :
    (m.set key value).get? key' = if key = key' then some value else m.get? key' :=
  lookup_assign key key' value m.entries

@[simp]
theorem get?_set_self (m : OrderedMap κ ν) (key : κ) (value : ν) :
    (m.set key value).get? key = some value := by
  simp [get?_set]

theorem get?_set_of_ne {m : OrderedMap κ ν} {key key' : κ} {value : ν} (h : key ≠ key') :
    (m.set key value).get? key' = m.get? key' := by
  simp [get?_set, h]

theorem assign_assign (key : κ) (value value' : ν) (entries : List (κ × ν)) :
    assign key value' (assign key value entries) = assign key value' entries := by
  induction entries with
  | nil => simp [assign]
  | cons entry rest ih =>
    obtain ⟨k, v⟩ := entry
    by_cases hk : k = key
    · simp [assign, hk]
    · simp [assign, hk, ih]

/-- Of two assignments of a key the second one counts. -/
@[simp]
theorem set_set (m : OrderedMap κ ν) (key : κ) (value value' : ν) :
    (m.set key value).set key value' = m.set key value' :=
  congrArg OrderedMap.mk (assign_assign key value value' m.entries)

theorem map_fst_assign (key : κ) (value : ν) (entries : List (κ × ν)) :
    (assign key value entries).map (·.1) =
      if key ∈ entries.map (·.1) then entries.map (·.1) else entries.map (·.1) ++ [key] := by
  induction entries with
  | nil => simp [assign]
  | cons entry rest ih =>
    obtain ⟨k, v⟩ := entry
    by_cases hk : k = key
    · subst hk
      simp [assign]
    · simp only [assign, hk, if_false, List.map_cons, ih, List.mem_cons]
      by_cases hm : key ∈ rest.map (·.1)
      · simp [hm]
      · simp [hm, Ne.symm hk]

/-- A new key goes to the end of the keys; a known one leaves them as they are. -/
theorem keys_set (m : OrderedMap κ ν) (key : κ) (value : ν) :
    (m.set key value).keys = if key ∈ m.keys then m.keys else m.keys ++ [key] :=
  map_fst_assign key value m.entries

end OrderedMap

end LineShell
