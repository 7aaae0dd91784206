import LineShell.Proofs.Actions
import LineShell.Proofs.PlainText
import LineShell.Status

/-!
# Numerals and the numbers that they denote

A numeral is a sign, if the kind of number allows one, and decimal digits, at least one of them.  Its
number is that of its digits in the usual sense, so zeros in front of it do not count and there is no
limit to its length.

The readers of numerals accept exactly those whose numbers fit in the type that is asked for
(`readSize_eq_ok_iff`, `readCode_eq_ok_iff`).  They compare before they go on to the next digit, and
what has been read never gets smaller, so that no number ever wraps around.
-/

namespace LineShell

open LineShell.Action

namespace Numeral

variable {text : Text} {limit value n : Nat} {code : Int}

/-- The text is a series of digits, and this is the number that they denote. -/
structure Denotes (digits : Text) (n : Nat) : Prop where
  ne_nil : digits ≠ []
  isDigit : ∀ c ∈ digits, c.isDigit = true
  value_eq : Nat.ofDigitChars 10 digits 0 = n

/-- The text is a numeral without a sign or with a plus sign, and this is its number. -/
inductive DenotesSize : Text → Nat → Prop
  | plain {digits : Text} {n : Nat} (h : Denotes digits n) : DenotesSize digits n
  | plus {digits : Text} {n : Nat} (h : Denotes digits n) : DenotesSize ('+' :: digits) n

/-- The text is a numeral with or without a sign, and this is its number. -/
inductive DenotesCode : Text → Int → Prop
  | plain {digits : Text} {n : Nat} (h : Denotes digits n) : DenotesCode digits n
  | plus {digits : Text} {n : Nat} (h : Denotes digits n) : DenotesCode ('+' :: digits) n
  | minus {digits : Text} {n : Nat} (h : Denotes digits n) : DenotesCode ('-' :: digits) (-n)

/-- The text is the numeral of an exit code: a number that has 32 bits with its sign. -/
def IsCode (text : Text) (code : Int) : Prop :=
  DenotesCode text code ∧ -2147483648 ≤ code ∧ code ≤ 2147483647

/-- A sign is no digit. -/
theorem not_denotes_cons {c : Char} (hc : c.isDigit = false) : ¬ Denotes (c :: text) n := by
  intro h
  rw [h.isDigit c List.mem_cons_self] at hc
  cases hc

/-! ## Digits -/

/-- Reading digits is all or nothing: all of them are read, and their number is within the limit. -/
theorem readDigits_eq_ok_iff (hvalue : value ≤ limit) :
    readDigits limit value text = .ok n ↔
      (∀ c ∈ text, c.isDigit = true) ∧ Nat.ofDigitChars 10 text value = n ∧ n ≤ limit := by
  constructor
  · intro h
    induction text generalizing value with
    | nil =>
      obtain rfl : value = n := Except.ok.inj h
      exact ⟨by simp, Nat.ofDigitChars_nil, hvalue⟩
    | cons c rest ih =>
      rw [readDigits, digit?] at h
      by_cases hc : c.isDigit = true
      · rw [if_pos hc] at h
        dsimp only at h
        split at h
        · next hfits =>
          obtain ⟨hrest, hn, hlimit⟩ := ih hfits h
          rw [Nat.ofDigitChars_cons, Nat.mul_comm 10]
          exact ⟨List.forall_mem_cons.2 ⟨hc, hrest⟩, hn, hlimit⟩
        · cases h
      · rw [if_neg hc] at h
        cases h
  · rintro ⟨hdigits, rfl, hlimit⟩
    exact readDigits_eq_ok hdigits hlimit

theorem readUnsigned_eq_ok_iff :
    readUnsigned limit text = .ok n ↔ Denotes text n ∧ n ≤ limit := by
  cases text with
  | nil =>
    constructor
    · intro h
      cases h
    · rintro ⟨hdenotes, -⟩
      exact absurd rfl hdenotes.ne_nil
  | cons c rest =>
    change readDigits limit 0 (c :: rest) = .ok n ↔ _
    rw [readDigits_eq_ok_iff (Nat.zero_le limit)]
    constructor
    · rintro ⟨hdigits, hn, hlimit⟩
      exact ⟨⟨List.cons_ne_nil c rest, hdigits, hn⟩, hlimit⟩
    · rintro ⟨⟨-, hdigits, hn⟩, hlimit⟩
      exact ⟨hdigits, hn, hlimit⟩

/-! ## Signs -/

/-- A size is read exactly from the numerals of numbers that have 64 bits. -/
theorem readSize_eq_ok_iff : readSize text = .ok n ↔ DenotesSize text n ∧ n ≤ maxSize := by
  constructor
  · intro h
    unfold readSize at h
    split at h
    · cases h
    · obtain ⟨hdenotes, hlimit⟩ := readUnsigned_eq_ok_iff.1 h
      exact ⟨.plus hdenotes, hlimit⟩
    · obtain ⟨hdenotes, hlimit⟩ := readUnsigned_eq_ok_iff.1 h
      exact ⟨.plain hdenotes, hlimit⟩
  · rintro ⟨hdenotes, hlimit⟩
    cases hdenotes with
    | plus h => exact readUnsigned_eq_ok_iff.2 ⟨h, hlimit⟩
    | plain h =>
      unfold readSize
      split
      · exact absurd rfl h.ne_nil
      · exact absurd h (not_denotes_cons (by decide))
      · exact readUnsigned_eq_ok_iff.2 ⟨h, hlimit⟩

theorem map_readUnsigned_eq_ok_iff :
    (readUnsigned limit text).map Int.ofNat = .ok code ↔
      ∃ n : Nat, (Denotes text n ∧ n ≤ limit) ∧ (n : Int) = code := by
  rw [except_map_eq_ok]
  simp only [readUnsigned_eq_ok_iff]
  rfl

theorem readCode_minus_eq_ok_iff :
    readCode ('-' :: text) = .ok code ↔
      ∃ n : Nat, (Denotes text n ∧ n ≤ maxCode + 1) ∧ -(n : Int) = code := by
  have hread : readCode ('-' :: text) =
      (readUnsigned (maxCode + 1) text >>= fun n => pure (n : Int)).map fun n => -n := rfl
  rw [hread, except_map_eq_ok]
  simp only [except_bind_eq_ok, readUnsigned_eq_ok_iff]
  constructor
  · rintro ⟨_, ⟨n, hn, ⟨⟩⟩, rfl⟩
    exact ⟨n, hn, rfl⟩
  · rintro ⟨n, hn, rfl⟩
    exact ⟨n, ⟨n, hn, rfl⟩, rfl⟩

/-- An exit code is read exactly from the numerals of exit codes. -/
theorem readCode_eq_ok_iff : readCode text = .ok code ↔ IsCode text code := by
  have hmax : maxCode = 2147483647 := rfl
  constructor
  · intro h
    unfold readCode at h
    split at h
    · cases h
    · obtain ⟨n, ⟨hdenotes, hlimit⟩, rfl⟩ := map_readUnsigned_eq_ok_iff.1 h
      exact ⟨.plus hdenotes, by omega, by omega⟩
    · obtain ⟨n, ⟨hdenotes, hlimit⟩, rfl⟩ := readCode_minus_eq_ok_iff.1 h
      exact ⟨.minus hdenotes, by omega, by omega⟩
    · obtain ⟨n, ⟨hdenotes, hlimit⟩, rfl⟩ := map_readUnsigned_eq_ok_iff.1 h
      exact ⟨.plain hdenotes, by omega, by omega⟩
  · rintro ⟨hdenotes, hlow, hhigh⟩
    cases hdenotes with
    | @plus digits n h => exact map_readUnsigned_eq_ok_iff.2 ⟨n, ⟨h, by omega⟩, rfl⟩
    | @minus digits n h => exact readCode_minus_eq_ok_iff.2 ⟨n, ⟨h, by omega⟩, rfl⟩
    | @plain digits n h =>
      unfold readCode
      split
      · exact absurd rfl h.ne_nil
      · exact absurd h (not_denotes_cons (by decide))
      · exact absurd h (not_denotes_cons (by decide))
      · exact map_readUnsigned_eq_ok_iff.2 ⟨n, ⟨h, by omega⟩, rfl⟩

end Numeral

/-! ## Exit codes of processes -/

/-- The low eight bits of the 32 that a status has. -/
theorem Status.exitCode_eq_and (status : Status) :
    status.exitCode = (BitVec.ofInt 32 status &&& 255#32).toNat := by
  unfold exitCode
  rw [BitVec.toNat_and, BitVec.toNat_ofInt]
  change _ = _ &&& (2 ^ 8 - 1)
  rw [Nat.and_two_pow_sub_one_eq_mod]
  omega

theorem Status.coe_exitCode (status : Status) : (status.exitCode : Int) = status % 256 :=
  Int.toNat_of_nonneg (Int.emod_nonneg status (by decide))

end LineShell
