import LineShell.Proofs.HistoryStore
import LineShell.Proofs.Reading
import Mathlib.Data.List.Destutter
import Mathlib.Data.List.DropRight

/-!
# Histories over whole runs

A history and its clones are used side by side: each is recorded into and resized on its own.  An
`Account` is a history together with what has been done with it since it was new, a clone taking
over the account of its original.  `accountsAfter` is the list of all accounts after some steps, and
whatever an operation preserves holds of every account at any time (`forall_accountsAfter`).

Two facts are carried through a run.  `Orderly` relates a history to the commands that it said it
kept: it holds the last of these, trimmed, within its capacity and without equal neighbours.
`entries_eq_drop` says what a history holds that was empty before: the last of the commands that
were fit to be kept, with runs of equal commands collapsed to one.  That one needs a capacity of at
least one, since a history without any room forgets what the newest command was.
-/

namespace LineShell.History

/-! ## Operations -/

/-- An operation that changes a history. -/
inductive Operation where
  | record (command program : Text)
  | resize (capacity : Nat)
  deriving DecidableEq, Repr

/-- A refused resize leaves the history as it is. -/
def apply (h : History) : Operation → History
  | .record command program => (h.record command program).2
  | .resize capacity =>
    match h.resize capacity with
    | .ok resized => resized
    | .error _ => h

/-- The command that the operation says it kept, if any, as it was kept. -/
def keeps (h : History) : Operation → List Text
  | .record command program =>
    if (h.record command program).1 = true then [Text.trim command] else []
  | .resize _ => []

/-- A history with all that was done with it, oldest first. -/
structure Account where
  history : History
  operations : List Operation
  /-- The commands that recording said it kept. -/
  kept : List Text
  deriving DecidableEq, Repr

namespace Account

def new (capacity : Nat) : Account := ⟨ofCapacity capacity, [], []⟩

def apply (account : Account) (operation : Operation) : Account :=
  { history := account.history.apply operation
    operations := account.operations ++ [operation]
    kept := account.kept ++ account.history.keeps operation }

end Account

/-- A step of a run, on the history at a position.  A clone is put behind all others. -/
inductive RunStep where
  | apply (position : Nat) (operation : Operation)
  | clone (position : Nat)
  deriving DecidableEq, Repr

def RunStep.run (accounts : List Account) : RunStep → List Account
  | apply position operation => accounts.modify position (·.apply operation)
  | clone position => accounts ++ accounts[position]?.toList

/-- All histories after the steps, beginning with a new one. -/
def accountsAfter (capacity : Nat) (steps : List RunStep) : List Account :=
  steps.foldl RunStep.run [.new capacity]

theorem mem_run {accounts : List Account} {step : RunStep} {account : Account}
    (h : account ∈ step.run accounts) :
    account ∈ accounts ∨ ∃ original ∈ accounts, ∃ operation, account = original.apply operation := by
  cases step with
  | apply position operation =>
    unfold RunStep.run at h
    obtain ⟨i, hi⟩ := List.mem_iff_getElem?.1 h
    rw [List.getElem?_modify] at hi
    obtain ⟨original, horiginal, rfl⟩ := Option.map_eq_some_iff.1 hi
    have hmem := List.mem_of_getElem? horiginal
    by_cases hposition : position = i
    · rw [if_pos hposition]
      exact .inr ⟨original, hmem, operation, rfl⟩
    · rw [if_neg hposition]
      exact .inl hmem
  | clone position =>
    rcases List.mem_append.1 h with hbefore | hclone
    · exact .inl hbefore
    · exact .inl (List.mem_of_getElem? (Option.mem_toList.1 hclone))

/-- What holds of a new history and is preserved by each operation holds at any time. -/
theorem forall_accountsAfter {P : Account → Prop} {capacity : Nat} (hnew : P (.new capacity))
    (happly : ∀ account operation, P account → P (account.apply operation))
    (steps : List RunStep) : ∀ account ∈ accountsAfter capacity steps, P account := by
  induction steps using List.reverseRecOn with
  | nil =>
    intro account haccount
    rw [List.mem_singleton.1 haccount]
    exact hnew
  | append_singleton steps step ih =>
    intro account haccount
    unfold accountsAfter at haccount
    rw [List.foldl_append] at haccount
    rcases mem_run haccount with hbefore | ⟨original, horiginal, operation, rfl⟩
    · exact ih account hbefore
    · exact happly original operation (ih original horiginal)

/-- Histories do not act on each other: each is what its own operations make of a new one. -/
theorem history_eq_foldl {capacity : Nat} {steps : List RunStep} {account : Account}
    (h : account ∈ accountsAfter capacity steps) :
    account.history = account.operations.foldl apply (ofCapacity capacity) := by
  refine forall_accountsAfter (P := fun account =>
    account.history = account.operations.foldl apply (ofCapacity capacity)) rfl ?_ steps account h
  intro account operation ih
  unfold Account.apply
  dsimp only
  rw [List.foldl_append, ← ih]
  rfl

/-! ## What is kept -/

variable {h : History} {kept : List Text} {command program : Text} {operation : Operation}

/-- The history holds the last of the kept commands, in good order. -/
structure Orderly (h : History) (kept : List Text) : Prop where
  length_le : h.entries.length ≤ h.capacity
  trimmed : ∀ entry ∈ h.entries, entry ≠ [] ∧ Text.trim entry = entry
  isChain : h.entries.IsChain (· ≠ ·)
  isSuffix : h.entries <:+ kept

theorem orderly_ofCapacity (capacity : Nat) : Orderly (ofCapacity capacity) [] where
  length_le := Nat.zero_le _
  trimmed _ hentry := nomatch hentry
  isChain := List.isChain_nil
  isSuffix := List.suffix_refl _

theorem Orderly.push (ho : Orderly h kept)
    (haccepts : h.accepts (Text.trim command) program = true) :
    Orderly (h.push (Text.trim command)) (kept ++ [Text.trim command]) := by
  obtain ⟨⟨hne, -⟩, -, hnewest⟩ := accepts_iff.1 haccepts
  obtain ⟨survivors, hsuffix, hentries, -⟩ := exists_entries_push h (Text.trim command)
  constructor
  case length_le =>
    have hlength : (h.record command program).2.entries.length ≤ h.capacity :=
      length_record_le ho.length_le
    rw [record_of_accepts haccepts] at hlength
    exact hlength
  case trimmed =>
    intro entry hentry
    rw [hentries] at hentry
    rcases List.mem_append.1 hentry with hbefore | hnew
    · exact ho.trimmed entry (hsuffix.subset hbefore)
    · rw [List.mem_singleton.1 hnew]
      exact ⟨hne, Text.trim_trim command⟩
  case isChain =>
    rw [hentries, List.isChain_append]
    refine ⟨ho.isChain.suffix hsuffix, List.isChain_singleton _, ?_⟩
    rintro newest hlast _ ⟨⟩ rfl
    -- The newest survivor is the newest entry, which differs from an accepted command.
    obtain ⟨evicted, hevicted⟩ := hsuffix
    apply hnewest
    rw [← hevicted, List.getLast?_append, Option.mem_def.1 hlast]
    rfl
  case isSuffix =>
    obtain ⟨older, rfl⟩ := hsuffix.trans ho.isSuffix
    rw [hentries]
    exact ⟨older, by rw [List.append_assoc]⟩

theorem Orderly.of_isSuffix {resized : History} (ho : Orderly h kept)
    (hlength : resized.entries.length ≤ resized.capacity) (hsuffix : resized.entries <:+ h.entries) :
    Orderly resized kept where
  length_le := hlength
  trimmed entry hentry := ho.trimmed entry (hsuffix.subset hentry)
  isChain := ho.isChain.suffix hsuffix
  isSuffix := hsuffix.trans ho.isSuffix

theorem apply_resize_of_le {capacity : Nat} (hsize : capacity ≤ maxCapacity) :
    h.apply (.resize capacity) =
      ⟨capacity, h.entries.drop (h.entries.length - capacity)⟩ := by
  unfold apply
  dsimp only
  rw [resize_eq_ok_iff.2 ⟨hsize, rfl⟩]

theorem apply_resize_of_lt {capacity : Nat} (hlarge : maxCapacity < capacity) :
    h.apply (.resize capacity) = h := by
  unfold apply resize
  dsimp only
  rw [if_pos hlarge]

/-- One operation keeps the history in order. -/
theorem Orderly.apply (ho : Orderly h kept) (operation : Operation) :
    Orderly (h.apply operation) (kept ++ h.keeps operation) := by
  cases operation with
  | record command program =>
    unfold History.apply keeps
    dsimp only
    by_cases haccepts : h.accepts (Text.trim command) program = true
    · rw [record_of_accepts haccepts]
      exact ho.push haccepts
    · rw [record_of_not_accepts haccepts]
      simpa using ho
  | resize capacity =>
    have hkeeps : h.keeps (.resize capacity) = [] := rfl
    rw [hkeeps, List.append_nil]
    by_cases hsize : capacity ≤ maxCapacity
    · rw [apply_resize_of_le hsize]
      refine ho.of_isSuffix ?_ (List.drop_suffix _ _)
      simp only [List.length_drop]
      omega
    · rw [apply_resize_of_lt (Nat.lt_of_not_le hsize)]
      exact ho

theorem orderly_of_mem {capacity : Nat} {steps : List RunStep} {account : Account}
    (h : account ∈ accountsAfter capacity steps) : Orderly account.history account.kept :=
  forall_accountsAfter (P := fun account => Orderly account.history account.kept)
    (orderly_ofCapacity capacity) (fun _ operation ho => ho.apply operation) steps account h

/-! ## Numbers -/

/-- The command with a number is the one listed with it. -/
theorem get?_eq_some_iff {n : Nat} {entry : Text} :
    h.get? n = some entry ↔ (n, entry) ∈ h.numbered := by
  unfold numbered
  rw [List.mem_mapIdx]
  cases n with
  | zero => simp [get?]
  | succ i =>
    simp only [get?, List.getElem?_eq_some_iff, Prod.mk.injEq, Nat.add_right_cancel_iff]
    constructor
    · rintro ⟨hi, hentry⟩
      exact ⟨i, hi, rfl, hentry⟩
    · rintro ⟨j, hj, rfl, hentry⟩
      exact ⟨hj, hentry⟩

theorem get?_ne_none_iff {n : Nat} : h.get? n ≠ none ↔ 1 ≤ n ∧ n ≤ h.size := by
  cases n with
  | zero => simp [get?]
  | succ i =>
    have hsize : i + 1 ≤ h.size ↔ i < h.entries.length := Nat.succ_le_iff
    simp [get?, hsize]

/-! ## Collapsing runs of equal commands -/

section Collapse

variable {α : Type} [DecidableEq α]

theorem destutter'_concat (a x : α) (l : List α) :
    (l ++ [x]).destutter' (· ≠ ·) a =
      if (l.destutter' (· ≠ ·) a).getLast? = some x then l.destutter' (· ≠ ·) a
      else l.destutter' (· ≠ ·) a ++ [x] := by
  induction l generalizing a with
  | nil =>
    by_cases hx : a = x
    · simp [hx]
    · simp [hx]
  | cons b l ih =>
    by_cases hab : a = b
    · subst hab
      have hrun : ¬ a ≠ a := fun hne => hne rfl
      rw [List.cons_append, List.destutter'_cons_neg _ hrun, List.destutter'_cons_neg _ hrun, ih]
    · have hlast : (a :: l.destutter' (· ≠ ·) b).getLast? = (l.destutter' (· ≠ ·) b).getLast? := by
        rw [List.getLast?_cons_of_ne_nil (List.destutter'_ne_nil _ _)]
      rw [List.cons_append, List.destutter'_cons_pos _ hab, List.destutter'_cons_pos _ hab, hlast, ih]
      split <;> rfl

/-- An element at the end is collapsed with an equal one before it. -/
theorem destutter_concat (l : List α) (x : α) :
    (l ++ [x]).destutter (· ≠ ·) =
      if (l.destutter (· ≠ ·)).getLast? = some x then l.destutter (· ≠ ·)
      else l.destutter (· ≠ ·) ++ [x] := by
  cases l with
  | nil => simp
  | cons a l => exact destutter'_concat a x l

end Collapse

/-! ## Between resizes -/

/-- The command that is fit to be kept: not blank and not of a builtin. -/
def eligible : Operation → List Text
  | .record command program =>
    if Text.trim command ≠ [] ∧ Builtin.isName program = false then [Text.trim command] else []
  | .resize _ => []

/-- The eligible commands, each run of equal ones collapsed to one. -/
def collapsed (operations : List Operation) : List Text :=
  (operations.flatMap eligible).destutter (· ≠ ·)

/-- Every resize among the operations is refused. -/
def ResizesRefused (operations : List Operation) : Prop :=
  ∀ capacity, .resize capacity ∈ operations → maxCapacity < capacity

theorem collapsed_concat (operations : List Operation) (operation : Operation) :
    collapsed (operations ++ [operation]) =
      match eligible operation with
      | [] => collapsed operations
      | command :: _ =>
        if (collapsed operations).getLast? = some command then collapsed operations
        else collapsed operations ++ [command] := by
  unfold collapsed
  rw [List.flatMap_append, List.flatMap_singleton]
  cases operation with
  | record command program =>
    unfold eligible
    dsimp only
    split
    · rw [destutter_concat]
    · simp
  | resize capacity => simp [eligible]

/-- A push onto the last entries of a list leaves the last entries of the longer list. -/
theorem entries_push_of_eq_drop {all : List Text} (hcapacity : 1 ≤ h.capacity)
    (hentries : h.entries = all.drop (all.length - h.capacity)) :
    (h.push command).entries =
      (all ++ [command]).drop ((all ++ [command]).length - h.capacity) := by
  have hlength : h.entries.length = all.length - (all.length - h.capacity) := by
    rw [hentries, List.length_drop]
  rw [List.length_append, List.length_singleton, List.drop_append_of_le_length (by omega)]
  unfold push
  dsimp only
  split
  · next hfull =>
    have hsplit : all.length + 1 - h.capacity = all.length - h.capacity + 1 := by omega
    rw [hsplit, hentries, List.drop_drop]
  · next hroom =>
    have hsplit : all.length + 1 - h.capacity = all.length - h.capacity := by omega
    rw [hsplit, hentries]

/-- What a history holds that was empty before, while its capacity stays. -/
theorem entries_eq_drop (hempty : h.entries = []) (hcapacity : 1 ≤ h.capacity)
    {operations : List Operation} (hrefused : ResizesRefused operations) :
    (operations.foldl apply h).capacity = h.capacity ∧
      (operations.foldl apply h).entries =
        (collapsed operations).drop ((collapsed operations).length - h.capacity) := by
  induction operations using List.reverseRecOn with
  | nil => exact ⟨rfl, by simp [hempty, collapsed]⟩
  | append_singleton operations operation ih =>
    have hbefore : ResizesRefused operations := fun capacity hmem =>
      hrefused capacity (List.mem_append_left _ hmem)
    obtain ⟨hsame, hentries⟩ := ih hbefore
    rw [List.foldl_append, List.foldl_cons, List.foldl_nil, collapsed_concat]
    generalize operations.foldl apply h = before at hsame hentries
    cases operation with
    | resize capacity =>
      have hlarge : maxCapacity < capacity := hrefused capacity (by simp)
      rw [apply_resize_of_lt hlarge]
      exact ⟨hsame, hentries⟩
    | record command program =>
      refine ⟨(capacity_record before command program).trans hsame, ?_⟩
      have hroom : before.capacity ≠ 0 := by omega
      -- The newest entry is the last of all commands before, since there is room for one.
      have hnewest : before.entries.getLast? = (collapsed operations).getLast? := by
        rw [hentries, List.getLast?_drop]
        split
        · next hshort =>
          have hnone : (collapsed operations).length = 0 := by omega
          rw [List.length_eq_zero_iff.1 hnone]
          rfl
        · rfl
      unfold apply eligible
      dsimp only
      by_cases hfit : Text.trim command ≠ [] ∧ Builtin.isName program = false
      · rw [if_pos hfit]
        dsimp only
        by_cases hrepeat : (collapsed operations).getLast? = some (Text.trim command)
        · rw [if_pos hrepeat, record_of_not_accepts fun haccepts =>
            (accepts_iff.1 haccepts).2.2 (hnewest.trans hrepeat)]
          exact hentries
        · have haccepts := accepts_iff.2 ⟨hfit, hroom, hnewest ▸ hrepeat⟩
          rw [if_neg hrepeat, record_of_accepts haccepts]
          rw [← hsame] at hentries hcapacity ⊢
          exact entries_push_of_eq_drop hcapacity hentries
      · rw [if_neg hfit, record_of_not_accepts fun haccepts => hfit (accepts_iff.1 haccepts).1]
        exact hentries

/-! ## Whole runs -/

/-- A history in a run, and every clone of it, holds the last of the commands that it said it kept:
within its capacity, trimmed, none blank, and no two neighbours equal.  Its numbers go from 1 to its
size.  From any moment at which it was empty with room for an entry, and as long as its capacity
stays, it holds the last of the commands that were neither blank nor builtin, with runs of equal
ones collapsed, as many as there is room for. -/
theorem accountsAfter_history {capacity : Nat} {steps : List RunStep} {account : Account}
    (h : account ∈ accountsAfter capacity steps) :
    account.history.size ≤ account.history.capacity ∧
      (∀ entry ∈ account.history.entries, entry ≠ [] ∧
        (∀ c ∈ entry.head?, Text.isBlank c = false) ∧
          ∀ c ∈ entry.getLast?, Text.isBlank c = false) ∧
      account.history.entries.IsChain (· ≠ ·) ∧
      account.history.entries <:+ account.kept ∧
      (∀ n entry, account.history.get? n = some entry ↔ (n, entry) ∈ account.history.numbered) ∧
      (∀ n, account.history.get? n ≠ none ↔ 1 ≤ n ∧ n ≤ account.history.size) ∧
      account.history = account.operations.foldl apply (ofCapacity capacity) ∧
      ∀ earlier later, account.operations = earlier ++ later → ResizesRefused later →
        let before := earlier.foldl apply (ofCapacity capacity)
        before.entries = [] → 1 ≤ before.capacity →
          account.history.entries =
            (collapsed later).rtake (min before.capacity (collapsed later).length) := by
  have horderly := orderly_of_mem h
  have hfold := history_eq_foldl h
  refine ⟨horderly.length_le, ?_, horderly.isChain, horderly.isSuffix, fun n entry =>
    get?_eq_some_iff, fun n => get?_ne_none_iff, hfold, ?_⟩
  · intro entry hentry
    obtain ⟨hne, htrim⟩ := horderly.trimmed entry hentry
    have hhead := Text.isBlank_head?_trim entry
    have hlast := Text.isBlank_getLast?_trim entry
    rw [htrim] at hhead hlast
    exact ⟨hne, hhead, hlast⟩
  · intro earlier later hsplit hrefused before hempty hcapacity
    rw [hfold, hsplit, List.foldl_append, (entries_eq_drop hempty hcapacity hrefused).2, List.rtake]
    congr 1
    omega

/-- A clone is emptied and given room for two entries again, then records four commands that are
eligible, two of them equal.  Its original has one entry and keeps it. -/
theorem accountsAfter_history_emptied_clone :
    let earlier : List Operation := [.record "a".toList "a".toList, .resize 0, .resize 2]
    let later : List Operation :=
      [.record " b ".toList "b".toList, .resize 101, .record "b".toList "b".toList,
        .record "c".toList "c".toList, .record "cd /".toList "cd".toList,
        .record "d".toList "d".toList]
    let steps : List RunStep :=
      [.apply 0 (.record "a".toList "a".toList), .clone 0, .apply 1 (.resize 0),
        .apply 1 (.resize 2)] ++ later.map (.apply 1)
    let original : Account :=
      { history := ⟨1, ["a".toList]⟩
        operations := [.record "a".toList "a".toList]
        kept := ["a".toList] }
    let clone : Account :=
      { history := ⟨2, ["c".toList, "d".toList]⟩
        operations := earlier ++ later
        kept := ["a".toList, "b".toList, "c".toList, "d".toList] }
    accountsAfter 1 steps = [original, clone] ∧ clone.history.entries <:+ clone.kept ∧
      clone.history.entries = (collapsed later).rtake (min 2 (collapsed later).length) := by
  intro earlier later steps original clone
  have haccounts : accountsAfter 1 steps = [original, clone] := by decide +kernel
  have hmem : clone ∈ accountsAfter 1 steps := by
    rw [haccounts]
    exact List.mem_cons_of_mem _ List.mem_cons_self
  have hrefused : ResizesRefused later := by
    intro capacity hresize
    have hcapacity : capacity = 101 := by simpa [later] using hresize
    rw [hcapacity]
    decide
  obtain ⟨-, -, -, hsuffix, -, -, -, hcollapsed⟩ := accountsAfter_history hmem
  exact ⟨haccounts, hsuffix, hcollapsed earlier later rfl hrefused (by decide) (by decide)⟩

end LineShell.History
