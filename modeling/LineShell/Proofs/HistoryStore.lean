import LineShell.History

/-!
# What the operations of a history keep

Recording and resizing are the only operations that change a history.  Recording adds at most the
command that it is given, and resizing adds nothing; both keep the entries within the capacity, and
the capacity within `maxCapacity`.
-/

namespace LineShell.History

variable {h resized : History} {command program entry : Text} {size : Nat}

/-! ## Numbers -/

/-- The entries are numbered from 1 to their count. -/
theorem exists_get? {n : Nat} (hpos : 1 ≤ n) (hsize : n ≤ h.size) :
    ∃ entry, h.get? n = some entry := by
  obtain ⟨i, rfl⟩ := Nat.exists_eq_add_of_le' hpos
  exact ⟨h.entries.get ⟨i, hsize⟩, List.getElem?_eq_getElem hsize⟩

theorem mem_entries_of_get? {n : Nat} (hentry : h.get? n = some entry) : entry ∈ h.entries := by
  cases n with
  | zero => cases hentry
  | succ i => exact List.mem_of_getElem? hentry

/-! ## Recording -/

theorem record_of_accepts (haccepts : h.accepts (Text.trim command) program = true) :
    h.record command program = (true, h.push (Text.trim command)) :=
  if_pos haccepts

theorem record_of_not_accepts (haccepts : ¬ h.accepts (Text.trim command) program = true) :
    h.record command program = (false, h) :=
  if_neg haccepts

/-- What is asked of the command itself comes first. -/
theorem accepts_iff :
    h.accepts command program = true ↔
      (command ≠ [] ∧ Builtin.isName program = false) ∧
        h.capacity ≠ 0 ∧ h.entries.getLast? ≠ some command := by
  simp only [accepts, Bool.and_eq_true, Bool.not_eq_true', bne_iff_ne, List.isEmpty_eq_false_iff]
  constructor
  · rintro ⟨⟨⟨hne, hcapacity⟩, hname⟩, hnewest⟩
    exact ⟨⟨hne, hname⟩, hcapacity, hnewest⟩
  · rintro ⟨⟨hne, hname⟩, hcapacity, hnewest⟩
    exact ⟨⟨⟨hne, hcapacity⟩, hname⟩, hnewest⟩

/-- A command is added behind the newest entries that stay, and there is room for it. -/
theorem exists_entries_push (h : History) (command : Text) :
    ∃ survivors, survivors <:+ h.entries ∧ (h.push command).entries = survivors ++ [command] ∧
      (h.entries.length ≤ h.capacity → h.capacity ≠ 0 → survivors.length < h.capacity) := by
  unfold push
  by_cases hfull : h.entries.length = h.capacity
  · refine ⟨h.entries.drop 1, List.drop_suffix 1 _, by simp [hfull], ?_⟩
    intro _ hcapacity
    rw [List.length_drop]
    omega
  · refine ⟨h.entries, List.suffix_refl _, by simp [hfull], ?_⟩
    intro hlength _
    omega

/-- Nothing but the command itself is added. -/
theorem mem_entries_record (hentry : entry ∈ (h.record command program).2.entries) :
    entry ∈ h.entries ∨ entry = Text.trim command := by
  by_cases haccepts : h.accepts (Text.trim command) program = true
  · obtain ⟨survivors, hsuffix, hentries, -⟩ := exists_entries_push h (Text.trim command)
    rw [record_of_accepts haccepts, hentries] at hentry
    rcases List.mem_append.1 hentry with hkept | hnew
    · exact .inl (hsuffix.subset hkept)
    · exact .inr (List.mem_singleton.1 hnew)
  · rw [record_of_not_accepts haccepts] at hentry
    exact .inl hentry

/-! ## Resizing -/

theorem resize_eq_ok_iff :
    h.resize size = .ok resized ↔
      size ≤ maxCapacity ∧ resized = ⟨size, h.entries.drop (h.entries.length - size)⟩ := by
  unfold resize
  by_cases hlarge : maxCapacity < size
  · simp [hlarge, Nat.not_le_of_lt hlarge]
  · simp [hlarge, Nat.le_of_not_lt hlarge, eq_comm]

/-- Resizing drops the oldest entries only. -/
theorem entries_isSuffix_of_resize (hresize : h.resize size = .ok resized) :
    resized.entries <:+ h.entries := by
  obtain ⟨-, rfl⟩ := resize_eq_ok_iff.1 hresize
  exact List.drop_suffix _ _

/-! ## Bounds -/

/-- The entries keep within the capacity, and the capacity within its limit. -/
structure Bounded (h : History) : Prop where
  length_le : h.entries.length ≤ h.capacity
  capacity_le : h.capacity ≤ maxCapacity

theorem bounded_new : Bounded new where
  length_le := Nat.zero_le _
  capacity_le := by decide

theorem length_record_le (hlength : h.entries.length ≤ h.capacity) :
    (h.record command program).2.entries.length ≤ h.capacity := by
  by_cases haccepts : h.accepts (Text.trim command) program = true
  · obtain ⟨survivors, -, hentries, hroom⟩ := exists_entries_push h (Text.trim command)
    have hless := hroom hlength (accepts_iff.1 haccepts).2.1
    rw [record_of_accepts haccepts, hentries, List.length_append, List.length_singleton]
    omega
  · rw [record_of_not_accepts haccepts]
    exact hlength

@[simp]
theorem capacity_record (h : History) (command program : Text) :
    (h.record command program).2.capacity = h.capacity := by
  unfold record
  dsimp only
  split <;> rfl

theorem Bounded.record (hbounded : h.Bounded) : (h.record command program).2.Bounded where
  length_le := by
    rw [capacity_record]
    exact length_record_le hbounded.length_le
  capacity_le := by
    rw [capacity_record]
    exact hbounded.capacity_le

theorem bounded_of_resize (hresize : h.resize size = .ok resized) : resized.Bounded := by
  obtain ⟨hsize, rfl⟩ := resize_eq_ok_iff.1 hresize
  refine ⟨?_, hsize⟩
  simp only [List.length_drop]
  omega

end LineShell.History
