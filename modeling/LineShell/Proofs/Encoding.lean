import LineShell.Text.Utf8
import Mathlib.Tactic.IntervalCases

/-!
# Which bytes are a text

The machine that reads bytes one at a time and the encoder of characters say the same: bytes are
decoded to a text if and only if they are its encoding (`decode?_eq_some_iff`), so bytes that are not
decoded are the encoding of no text.

Both are taken apart into digits.  A character beyond the first 128 is a number with two to four
digits to base 64, the first one in the byte that begins it and one in each byte behind.  `Spells`
says what the machine accepts as one character, and `spells_iff` compares it with the encoder, one
width after the other.
-/

namespace LineShell.Utf8

/-! ## What the machine reads -/

/-- The bytes turn an unfinished character into this one. -/
inductive Pending.Completes : Pending → Bytes → Char → Prop
  | last {low high b : UInt8} {bits : Nat} {c : Char} (fits : low ≤ b ∧ b ≤ high)
      (read : Char.ofNat (bits * 64 + (b.toNat - 0x80)) = c) :
      Completes ⟨0, low, high, bits⟩ [b] c
  | next {more bits : Nat} {low high b : UInt8} {rest : Bytes} {c : Char}
      (fits : low ≤ b ∧ b ≤ high)
      (behind : Completes ⟨more, 0x80, 0xBF, bits * 64 + (b.toNat - 0x80)⟩ rest c) :
      Completes ⟨more + 1, low, high, bits⟩ (b :: rest) c

/-- The bytes are read as this character. -/
inductive Spells : Bytes → Char → Prop
  | whole {b : UInt8} {c : Char} (first : lead b = .whole c) : Spells [b] c
  | begins {b : UInt8} {pending : Pending} {rest : Bytes} {c : Char}
      (first : lead b = .begins pending) (behind : pending.Completes rest c) : Spells (b :: rest) c

/-! ## Continuation bytes -/

theorem toNat_ofNat_of_lt {n : Nat} (h : n < 256) : (UInt8.ofNat n).toNat = n := by
  rw [UInt8.toNat_ofNat']
  omega

/-- A byte that continues a character has six bits of it. -/
theorem fits_iff {low high b : UInt8} (hlow : 128 ≤ low.toNat) (hhigh : high.toNat ≤ 191) :
    low ≤ b ∧ b ≤ high ↔
      ∃ digit, low.toNat ≤ digit + 128 ∧ digit + 128 ≤ high.toNat ∧
        b = UInt8.ofNat (digit + 128) := by
  rw [UInt8.le_iff_toNat_le, UInt8.le_iff_toNat_le]
  constructor
  · rintro ⟨hfrom, hto⟩
    have hdigit : b.toNat - 128 + 128 = b.toNat := by omega
    refine ⟨b.toNat - 128, by omega, by omega, ?_⟩
    rw [hdigit, UInt8.ofNat_toNat]
  · rintro ⟨digit, hfrom, hto, rfl⟩
    rw [toNat_ofNat_of_lt (by omega)]
    exact ⟨hfrom, hto⟩

section Digits

variable {low high : UInt8} {bits : Nat} {bytes : Bytes} {c : Char}

theorem completes_last_iff (hlow : 128 ≤ low.toNat) (hhigh : high.toNat ≤ 191) :
    Pending.Completes ⟨0, low, high, bits⟩ bytes c ↔
      ∃ digit, low.toNat ≤ digit + 128 ∧ digit + 128 ≤ high.toNat ∧
        bytes = [UInt8.ofNat (digit + 128)] ∧ Char.ofNat (bits * 64 + digit) = c := by
  constructor
  · rintro (⟨hfits, hread⟩ | _)
    obtain ⟨digit, hfrom, hto, rfl⟩ := (fits_iff hlow hhigh).1 hfits
    rw [toNat_ofNat_of_lt (by omega), Nat.add_sub_cancel] at hread
    exact ⟨digit, hfrom, hto, rfl, hread⟩
  · rintro ⟨digit, hfrom, hto, rfl, hread⟩
    refine .last ((fits_iff hlow hhigh).2 ⟨digit, hfrom, hto, rfl⟩) ?_
    rw [toNat_ofNat_of_lt (by omega), Nat.add_sub_cancel]
    exact hread

theorem completes_next_iff {more : Nat} (hlow : 128 ≤ low.toNat) (hhigh : high.toNat ≤ 191) :
    Pending.Completes ⟨more + 1, low, high, bits⟩ bytes c ↔
      ∃ digit rest, low.toNat ≤ digit + 128 ∧ digit + 128 ≤ high.toNat ∧
        bytes = UInt8.ofNat (digit + 128) :: rest ∧
          Pending.Completes ⟨more, 0x80, 0xBF, bits * 64 + digit⟩ rest c := by
  constructor
  · rintro (_ | ⟨hfits, hbehind⟩)
    obtain ⟨digit, hfrom, hto, rfl⟩ := (fits_iff hlow hhigh).1 hfits
    rw [toNat_ofNat_of_lt (by omega), Nat.add_sub_cancel] at hbehind
    exact ⟨digit, _, hfrom, hto, rfl, hbehind⟩
  · rintro ⟨digit, rest, hfrom, hto, rfl, hbehind⟩
    refine .next ((fits_iff hlow hhigh).2 ⟨digit, hfrom, hto, rfl⟩) ?_
    rw [toNat_ofNat_of_lt (by omega), Nat.add_sub_cancel]
    exact hbehind

end Digits

/-! ## First bytes -/

theorem lead_of_lt {n : Nat} (h : n < 128) : lead (UInt8.ofNat n) = .whole (Char.ofNat n) := by
  rw [lead, toNat_ofNat_of_lt (by omega), if_pos h]

theorem lead_two {digit : Nat} (hfrom : 2 ≤ digit) (hto : digit < 32) :
    lead (UInt8.ofNat (digit + 192)) = .begins ⟨0, 0x80, 0xBF, digit⟩ := by
  interval_cases digit <;> rfl

theorem lead_three {digit : Nat} (h : digit < 16) :
    ∃ low high, lead (UInt8.ofNat (digit + 224)) = .begins ⟨1, low, high, digit⟩ ∧
      (digit = 0 ∧ low.toNat = 160 ∨ digit ≠ 0 ∧ low.toNat = 128) ∧
      (digit = 13 ∧ high.toNat = 159 ∨ digit ≠ 13 ∧ high.toNat = 191) := by
  interval_cases digit <;> exact ⟨_, _, rfl, by decide, by decide⟩

theorem lead_four {digit : Nat} (h : digit < 5) :
    ∃ low high, lead (UInt8.ofNat (digit + 240)) = .begins ⟨2, low, high, digit⟩ ∧
      (digit = 0 ∧ low.toNat = 144 ∨ digit ≠ 0 ∧ low.toNat = 128) ∧
      (digit = 4 ∧ high.toNat = 143 ∨ digit ≠ 4 ∧ high.toNat = 191) := by
  interval_cases digit <;> exact ⟨_, _, rfl, by decide, by decide⟩

/-- A first byte has the first digit of its character, or cannot begin any. -/
theorem lead_cases (b : UInt8) :
    (∃ digit < 128, b = UInt8.ofNat digit) ∨
      (∃ digit, 2 ≤ digit ∧ digit < 32 ∧ b = UInt8.ofNat (digit + 192)) ∨
      (∃ digit < 16, b = UInt8.ofNat (digit + 224)) ∨
      (∃ digit < 5, b = UInt8.ofNat (digit + 240)) ∨ lead b = .malformed := by
  have hsize : b.toNat < 256 := b.toNat_lt
  have hspell (low : Nat) (h : low ≤ b.toNat) : b = UInt8.ofNat (b.toNat - low + low) := by
    rw [Nat.sub_add_cancel h, UInt8.ofNat_toNat]
  by_cases hone : b.toNat < 128
  · exact .inl ⟨b.toNat, hone, UInt8.ofNat_toNat.symm⟩
  by_cases htwo : 194 ≤ b.toNat ∧ b.toNat ≤ 223
  · exact .inr (.inl ⟨b.toNat - 192, by omega, by omega, hspell 192 (by omega)⟩)
  by_cases hthree : 224 ≤ b.toNat ∧ b.toNat ≤ 239
  · exact .inr (.inr (.inl ⟨b.toNat - 224, by omega, hspell 224 (by omega)⟩))
  by_cases hfour : 240 ≤ b.toNat ∧ b.toNat ≤ 244
  · exact .inr (.inr (.inr (.inl ⟨b.toNat - 240, by omega, hspell 240 (by omega)⟩)))
  refine .inr (.inr (.inr (.inr ?_)))
  rw [lead]
  repeat rw [if_neg (by omega)]

/-! ## Characters -/

theorem toNat_ofNat {n : Nat} (h : n.isValidChar) : (Char.ofNat n).val.toNat = n := by
  unfold Char.ofNat
  rw [dif_pos h]
  rfl

/-- A character has one to four digits, of seven bits or of six bits each. -/
theorem char_cases (c : Char) :
    (∃ n < 128, c = Char.ofNat n) ∨
      (∃ k d, 2 ≤ k ∧ k < 32 ∧ d < 64 ∧ c = Char.ofNat (k * 64 + d)) ∨
      (∃ k d e, k < 16 ∧ d < 64 ∧ e < 64 ∧ (k = 0 → 32 ≤ d) ∧ (k = 13 → d < 32) ∧
        c = Char.ofNat ((k * 64 + d) * 64 + e)) ∨
      ∃ k d e f, k < 5 ∧ d < 64 ∧ e < 64 ∧ f < 64 ∧ (k = 0 → 16 ≤ d) ∧ (k = 4 → d < 16) ∧
        c = Char.ofNat (((k * 64 + d) * 64 + e) * 64 + f) := by
  have hvalid := c.valid
  have hread : c = Char.ofNat c.val.toNat := (Char.ofNat_toNat c).symm
  unfold UInt32.isValidChar Nat.isValidChar at hvalid
  generalize c.val.toNat = v at hvalid hread
  by_cases hone : v < 128
  · exact .inl ⟨v, hone, hread⟩
  by_cases htwo : v < 2048
  · refine .inr (.inl ⟨v / 64, v % 64, by omega, by omega, by omega, hread.trans ?_⟩)
    congr 1
    omega
  by_cases hthree : v < 65536
  · refine .inr (.inr (.inl ⟨v / 4096, v / 64 % 64, v % 64, by omega, by omega, by omega, by omega,
      by omega, hread.trans ?_⟩))
    congr 1
    omega
  · refine .inr (.inr (.inr ⟨v / 262144, v / 4096 % 64, v / 64 % 64, v % 64, by omega, by omega,
      by omega, by omega, by omega, by omega, hread.trans ?_⟩))
    congr 1
    omega

section Widths

variable {k d e f : Nat}

theorem utf8EncodeChar_one (hk : k < 128) :
    String.utf8EncodeChar (Char.ofNat k) = [UInt8.ofNat k] := by
  unfold String.utf8EncodeChar
  rw [toNat_ofNat (.inl (by omega))]
  exact if_pos (by omega)

theorem utf8EncodeChar_two (hk : 2 ≤ k) (hk' : k < 32) (hd : d < 64) :
    String.utf8EncodeChar (Char.ofNat (k * 64 + d)) =
      [UInt8.ofNat (k + 192), UInt8.ofNat (d + 128)] := by
  have hk'' : (k * 64 + d) / 64 % 32 = k := by omega
  have hd' : (k * 64 + d) % 64 = d := by omega
  unfold String.utf8EncodeChar
  rw [toNat_ofNat (.inl (by omega))]
  dsimp only
  rw [if_neg (by omega), if_pos (by omega), hk'', hd']

theorem utf8EncodeChar_three (hk : k < 16) (hd : d < 64) (he : e < 64) (hlow : k = 0 → 32 ≤ d)
    (hhigh : k = 13 → d < 32) :
    String.utf8EncodeChar (Char.ofNat ((k * 64 + d) * 64 + e)) =
      [UInt8.ofNat (k + 224), UInt8.ofNat (d + 128), UInt8.ofNat (e + 128)] := by
  have hk' : ((k * 64 + d) * 64 + e) / 4096 % 16 = k := by omega
  have hd' : ((k * 64 + d) * 64 + e) / 64 % 64 = d := by omega
  have he' : ((k * 64 + d) * 64 + e) % 64 = e := by omega
  unfold String.utf8EncodeChar
  rw [toNat_ofNat (by unfold Nat.isValidChar; omega)]
  dsimp only
  rw [if_neg (by omega), if_neg (by omega), if_pos (by omega), hk', hd', he']

theorem utf8EncodeChar_four (hk : k < 5) (hd : d < 64) (he : e < 64) (hf : f < 64)
    (hlow : k = 0 → 16 ≤ d) (hhigh : k = 4 → d < 16) :
    String.utf8EncodeChar (Char.ofNat (((k * 64 + d) * 64 + e) * 64 + f)) =
      [UInt8.ofNat (k + 240), UInt8.ofNat (d + 128), UInt8.ofNat (e + 128),
        UInt8.ofNat (f + 128)] := by
  have hk' : (((k * 64 + d) * 64 + e) * 64 + f) / 262144 % 8 = k := by omega
  have hd' : (((k * 64 + d) * 64 + e) * 64 + f) / 4096 % 64 = d := by omega
  have he' : (((k * 64 + d) * 64 + e) * 64 + f) / 64 % 64 = e := by omega
  have hf' : (((k * 64 + d) * 64 + e) * 64 + f) % 64 = f := by omega
  unfold String.utf8EncodeChar
  rw [toNat_ofNat (by unfold Nat.isValidChar; omega)]
  dsimp only
  rw [if_neg (by omega), if_neg (by omega), if_neg (by omega), hk', hd', he', hf']

end Widths

/-- A character is read from the bytes that encode it and from no others. -/
theorem spells_iff {bytes : Bytes} {c : Char} :
    Spells bytes c ↔ String.utf8EncodeChar c = bytes := by
  have hlow : (0x80 : UInt8).toNat = 128 := rfl
  have hhigh : (0xBF : UInt8).toNat = 191 := rfl
  constructor
  · intro h
    obtain ⟨b, rest, rfl⟩ : ∃ b rest, bytes = b :: rest := by cases h <;> exact ⟨_, _, rfl⟩
    rcases lead_cases b with
      ⟨k, hk, rfl⟩ | ⟨k, hk, hk', rfl⟩ | ⟨k, hk, rfl⟩ | ⟨k, hk, rfl⟩ | hlead
    · have hlead := lead_of_lt hk
      cases h with
      | begins first _ => cases hlead.symm.trans first
      | whole first =>
        cases hlead.symm.trans first
        exact utf8EncodeChar_one hk
    · have hlead := lead_two hk hk'
      cases h with
      | whole first => cases hlead.symm.trans first
      | begins first behind =>
        cases hlead.symm.trans first
        obtain ⟨d, hd, hd', rfl, rfl⟩ := (completes_last_iff (by decide) (by decide)).1 behind
        exact utf8EncodeChar_two hk hk' (by omega)
    · obtain ⟨low, high, hlead, hfrom, hto⟩ := lead_three hk
      cases h with
      | whole first => cases hlead.symm.trans first
      | begins first behind =>
        cases hlead.symm.trans first
        obtain ⟨d, _, hd, hd', rfl, hrest⟩ := (completes_next_iff (by omega) (by omega)).1 behind
        obtain ⟨e, he, he', rfl, rfl⟩ := (completes_last_iff (by decide) (by decide)).1 hrest
        exact utf8EncodeChar_three hk (by omega) (by omega) (by omega) (by omega)
    · obtain ⟨low, high, hlead, hfrom, hto⟩ := lead_four hk
      cases h with
      | whole first => cases hlead.symm.trans first
      | begins first behind =>
        cases hlead.symm.trans first
        obtain ⟨d, _, hd, hd', rfl, hrest⟩ := (completes_next_iff (by omega) (by omega)).1 behind
        obtain ⟨e, _, he, he', rfl, hlast⟩ := (completes_next_iff (by decide) (by decide)).1 hrest
        obtain ⟨f, hf, hf', rfl, rfl⟩ := (completes_last_iff (by decide) (by decide)).1 hlast
        exact utf8EncodeChar_four hk (by omega) (by omega) (by omega) (by omega) (by omega)
    · cases h with
      | whole first => cases hlead.symm.trans first
      | begins first _ => cases hlead.symm.trans first
  · rintro rfl
    rcases char_cases c with
      ⟨k, hk, rfl⟩ | ⟨k, d, hk, hk', hd, rfl⟩ | ⟨k, d, e, hk, hd, he, hlow', hhigh', rfl⟩ |
        ⟨k, d, e, f, hk, hd, he, hf, hlow', hhigh', rfl⟩
    · rw [utf8EncodeChar_one hk]
      exact .whole (lead_of_lt hk)
    · rw [utf8EncodeChar_two hk hk' hd]
      refine .begins (lead_two hk hk') ?_
      exact (completes_last_iff (by decide) (by decide)).2 ⟨d, by omega, by omega, rfl, rfl⟩
    · rw [utf8EncodeChar_three hk hd he hlow' hhigh']
      obtain ⟨low, high, hlead, hfrom, hto⟩ := lead_three hk
      refine .begins hlead ?_
      refine (completes_next_iff (by omega) (by omega)).2 ⟨d, _, by omega, by omega, rfl, ?_⟩
      exact (completes_last_iff (by decide) (by decide)).2 ⟨e, by omega, by omega, rfl, rfl⟩
    · rw [utf8EncodeChar_four hk hd he hf hlow' hhigh']
      obtain ⟨low, high, hlead, hfrom, hto⟩ := lead_four hk
      refine .begins hlead ?_
      refine (completes_next_iff (by omega) (by omega)).2 ⟨d, _, by omega, by omega, rfl, ?_⟩
      refine (completes_next_iff (by decide) (by decide)).2 ⟨e, _, by omega, by omega, rfl, ?_⟩
      exact (completes_last_iff (by decide) (by decide)).2 ⟨f, by omega, by omega, rfl, rfl⟩

/-! ## Texts -/

theorem encode_cons (c : Char) (text : Text) :
    encode (c :: text) = String.utf8EncodeChar c ++ encode text :=
  List.flatMap_cons

theorem encode_append (front back : Text) : encode (front ++ back) = encode front ++ encode back :=
  List.flatMap_append

theorem symbolsFrom_of_completes {pending : Pending} {bytes rest : Bytes} {c : Char}
    (h : pending.Completes bytes c) :
    symbolsFrom (some pending) (bytes ++ rest) = some c :: symbolsFrom none rest := by
  induction h with
  | last fits read =>
    rw [List.singleton_append, symbolsFrom]
    simp only [step]
    rw [if_pos fits, read]
    rfl
  | next fits _ ih =>
    rw [List.cons_append, symbolsFrom]
    simp only [step]
    rw [if_pos fits]
    exact ih

theorem symbols_append_of_spells {bytes rest : Bytes} {c : Char} (h : Spells bytes c) :
    symbols (bytes ++ rest) = some c :: symbols rest := by
  cases h with
  | whole first =>
    unfold symbols
    rw [List.singleton_append, symbolsFrom, step, start, first]
    rfl
  | begins first behind =>
    unfold symbols
    rw [List.cons_append, symbolsFrom, step, start, first]
    exact symbolsFrom_of_completes behind

theorem exists_completes {pending : Pending} {bytes : Bytes}
    (h : none ∉ symbolsFrom (some pending) bytes) :
    ∃ front rest c, bytes = front ++ rest ∧ pending.Completes front c := by
  induction bytes generalizing pending with
  | nil => simp [symbolsFrom] at h
  | cons b bytes ih =>
    rw [symbolsFrom] at h
    simp only [step] at h
    obtain ⟨more, low, high, bits⟩ := pending
    split at h
    · next fits =>
      cases more with
      | zero => exact ⟨[b], bytes, _, rfl, .last fits rfl⟩
      | succ more =>
        obtain ⟨front, rest, c, rfl, hrest⟩ := ih h
        exact ⟨b :: front, rest, c, rfl, .next fits hrest⟩
    · exact absurd (List.mem_cons_self ..) h

theorem exists_spells {bytes : Bytes} (hne : bytes ≠ []) (h : none ∉ symbols bytes) :
    ∃ front rest c, bytes = front ++ rest ∧ Spells front c := by
  obtain ⟨b, bytes, rfl⟩ := List.exists_cons_of_ne_nil hne
  unfold symbols at h
  rw [symbolsFrom, step, start] at h
  cases hlead : lead b with
  | whole c => exact ⟨[b], bytes, c, rfl, .whole hlead⟩
  | begins pending =>
    rw [hlead] at h
    obtain ⟨front, rest, c, rfl, hbehind⟩ := exists_completes h
    exact ⟨b :: front, rest, c, rfl, .begins hlead hbehind⟩
  | malformed =>
    rw [hlead] at h
    exact absurd (List.mem_cons_self ..) h

theorem symbols_encode (text : Text) : symbols (encode text) = text.map some := by
  induction text with
  | nil => rfl
  | cons c text ih =>
    rw [encode_cons, symbols_append_of_spells (spells_iff.2 rfl), ih, List.map_cons]

/-- Bytes without a malformed part are a text. -/
theorem exists_encode_eq {bytes : Bytes} (h : none ∉ symbols bytes) :
    ∃ text, encode text = bytes := by
  induction hlength : bytes.length using Nat.strong_induction_on generalizing bytes with
  | _ length ih =>
    by_cases hne : bytes = []
    · exact ⟨[], hne.symm⟩
    obtain ⟨front, rest, c, rfl, hspells⟩ := exists_spells hne h
    rw [symbols_append_of_spells hspells] at h
    have hshorter : rest.length < length := by
      rw [← hlength, List.length_append]
      cases hspells <;> simp
    obtain ⟨text, rfl⟩ := ih _ hshorter (fun hnone => h (List.mem_cons_of_mem _ hnone)) rfl
    exact ⟨c :: text, by rw [← spells_iff.1 hspells]; rfl⟩

theorem mapM_id_eq_some_iff {symbols : List (Option Char)} {text : Text} :
    symbols.mapM id = some text ↔ symbols = text.map some := by
  induction symbols generalizing text with
  | nil => cases text <;> simp
  | cons symbol symbols ih =>
    cases symbol with
    | none => cases text <;> simp
    | some c => cases text <;> simp [Option.bind_eq_some_iff, ih, and_comm]

theorem decode?_eq_some_iff {bytes : Bytes} {text : Text} :
    decode? bytes = some text ↔ encode text = bytes := by
  unfold decode?
  rw [mapM_id_eq_some_iff]
  constructor
  · intro h
    obtain ⟨found, rfl⟩ : ∃ found, encode found = bytes :=
      exists_encode_eq (by rw [h]; simp)
    rw [symbols_encode] at h
    rw [(List.map_inj_right fun _ _ => Option.some.inj).1 h]
  · rintro rfl
    exact symbols_encode text

theorem decode?_eq_none_iff {bytes : Bytes} :
    decode? bytes = none ↔ ∀ text, encode text ≠ bytes := by
  simp only [Option.eq_none_iff_forall_ne_some, Ne, decode?_eq_some_iff]

/-! ## Bytes that stand for themselves -/

theorem ofNat_inj_of_lt {m n : Nat} (hm : m < 256) (hn : n < 256) :
    UInt8.ofNat m = UInt8.ofNat n ↔ m = n := by
  rw [← UInt8.toNat_inj, toNat_ofNat_of_lt hm, toNat_ofNat_of_lt hn]

/-- One of the first 128 characters is its own byte.  The bytes of any other one lie beyond these: the
first one begins a character, and those behind it continue one. -/
theorem utf8EncodeChar_cases (c : Char) :
    (∃ n < 128, c = Char.ofNat n ∧ String.utf8EncodeChar c = [UInt8.ofNat n]) ∨
      128 ≤ c.toNat ∧ ∃ b rest, String.utf8EncodeChar c = b :: rest ∧ 192 ≤ b.toNat ∧
        ∀ d ∈ rest, 128 ≤ d.toNat ∧ d.toNat < 192 := by
  by_cases hc : c.toNat < 128
  · left
    refine ⟨c.toNat, hc, (Char.ofNat_toNat c).symm, ?_⟩
    rw [← utf8EncodeChar_one hc, Char.ofNat_toNat]
  right
  have hcontinues (digit : Nat) (h : digit < 64) :
      128 ≤ (UInt8.ofNat (digit + 128)).toNat ∧ (UInt8.ofNat (digit + 128)).toNat < 192 := by
    rw [toNat_ofNat_of_lt (by omega)]
    omega
  refine ⟨Nat.not_lt.1 hc, ?_⟩
  rcases char_cases c with
    ⟨k, hk, rfl⟩ | ⟨k, d, hk, hk', hd, rfl⟩ | ⟨k, d, e, hk, hd, he, hlow, hhigh, rfl⟩ |
      ⟨k, d, e, f, hk, hd, he, hf, hlow, hhigh, rfl⟩
  · have hvalue : (Char.ofNat k).toNat = k := toNat_ofNat (.inl (by omega))
    omega
  · refine ⟨_, _, utf8EncodeChar_two hk hk' hd, ?_, by simpa using hcontinues d hd⟩
    rw [toNat_ofNat_of_lt (by omega)]
    omega
  · refine ⟨_, _, utf8EncodeChar_three hk hd he hlow hhigh, ?_,
      by simpa using ⟨hcontinues d hd, hcontinues e he⟩⟩
    rw [toNat_ofNat_of_lt (by omega)]
    omega
  · refine ⟨_, _, utf8EncodeChar_four hk hd he hf hlow hhigh, ?_,
      by simpa using ⟨hcontinues d hd, hcontinues e he, hcontinues f hf⟩⟩
    rw [toNat_ofNat_of_lt (by omega)]
    omega

/-- One of the first 128 bytes occurs in the encoding of its own character only. -/
theorem mem_utf8EncodeChar_iff {n : Nat} (hn : n < 128) {c : Char} :
    UInt8.ofNat n ∈ String.utf8EncodeChar c ↔ c = Char.ofNat n := by
  constructor
  · intro hmem
    have hvalue : (UInt8.ofNat n).toNat = n := toNat_ofNat_of_lt (by omega)
    rcases utf8EncodeChar_cases c with ⟨m, hm, rfl, hbytes⟩ | ⟨-, b, rest, hbytes, hb, hrest⟩
    · rw [hbytes, List.mem_singleton, ofNat_inj_of_lt (by omega) (by omega)] at hmem
      rw [hmem]
    · rw [hbytes] at hmem
      rcases List.mem_cons.1 hmem with rfl | hmem
      · omega
      · have hbeyond := (hrest _ hmem).1
        omega
  · rintro rfl
    rw [utf8EncodeChar_one hn]
    exact List.mem_singleton_self _

theorem mem_encode_iff {n : Nat} (hn : n < 128) {text : Text} :
    UInt8.ofNat n ∈ encode text ↔ Char.ofNat n ∈ text := by
  simp only [encode, List.mem_flatMap, mem_utf8EncodeChar_iff hn, exists_eq_right]

theorem encode_ne_nil {text : Text} (h : text ≠ []) : encode text ≠ [] := by
  obtain ⟨c, text, rfl⟩ := List.exists_cons_of_ne_nil h
  rw [encode_cons]
  exact List.append_ne_nil_of_left_ne_nil String.utf8EncodeChar_ne_nil _

end LineShell.Utf8
