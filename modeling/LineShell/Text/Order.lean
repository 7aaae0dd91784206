/-!
# The order of a listing

Names, paths and lines are listed in the order of their symbols from left to right, and a
beginning comes before what it begins.  For text this is the order of scalar values, which is also
that of the encoded bytes.
-/

namespace LineShell

/-- Whether two lists are in order when their symbols are compared by number. -/
def inOrder {α : Type} (number : α → Nat) : List α → List α → Bool
  | [], _ => true
  | _ :: _, [] => false
  | a :: left, b :: right =>
    number a < number b || (number a == number b && inOrder number left right)

variable {α : Type} (number : α → Nat)

/-- Of two lists at least one comes before the other. -/
theorem inOrder_total (left right : List α) :
    (inOrder number left right || inOrder number right left) = true := by
  induction left generalizing right with
  | nil => rfl
  | cons a left ih =>
    cases right with
    | nil => rfl
    | cons b right =>
      have := ih right
      simp only [inOrder, Bool.or_eq_true, Bool.and_eq_true, decide_eq_true_eq, beq_iff_eq] at this ⊢
      rcases Nat.lt_trichotomy (number a) (number b) with h | h | h
      · exact .inl (.inl h)
      · exact this.imp (fun h' => .inr ⟨h, h'⟩) (fun h' => .inr ⟨h.symm, h'⟩)
      · exact .inr (.inl h)

theorem inOrder_trans {a b c : List α} (hab : inOrder number a b = true)
    (hbc : inOrder number b c = true) : inOrder number a c = true := by
  induction a generalizing b c with
  | nil => rfl
  | cons x a ih =>
    match b, c with
    | [], _ => exact absurd hab (by simp [inOrder])
    | _ :: _, [] => exact absurd hbc (by simp [inOrder])
    | y :: b, z :: c =>
      simp only [inOrder, Bool.or_eq_true, Bool.and_eq_true, decide_eq_true_eq, beq_iff_eq] at *
      rcases hab with hab | ⟨hab, hab'⟩ <;> rcases hbc with hbc | ⟨hbc, hbc'⟩
      · exact .inl (by omega)
      · exact .inl (by omega)
      · exact .inl (by omega)
      · exact .inr ⟨by omega, ih hab' hbc'⟩

/-- A listing is sorted by the key that it is sorted by. -/
theorem pairwise_mergeSort_inOrder {β : Type} (key : β → List α) (listing : List β) :
    (listing.mergeSort fun a b => inOrder number (key a) (key b)).Pairwise fun a b =>
      inOrder number (key a) (key b) = true :=
  @List.pairwise_mergeSort _ (fun a b => inOrder number (key a) (key b))
    (fun _ _ _ => inOrder_trans number) (fun _ _ => inOrder_total number _ _) listing

end LineShell
