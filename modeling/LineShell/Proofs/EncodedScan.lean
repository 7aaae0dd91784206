import LineShell.Proofs.Decomposition
import LineShell.Proofs.Encoding
import LineShell.Redirection.ByteScan

/-!
# Scanning an encoded line

Operators, blanks and angle brackets are among the first 128 characters, and their bytes occur in no
longer character.  So the bytes of a line are cut where its characters are cut, and each piece that is
cut from the bytes is the encoding of the piece that is cut from the characters (`scan_encode`).

A longer character has no part in this: none of its bytes begins an operator, none is a blank, and all
of them can stand in a path, just like the character itself.  `AsciiClass` is what is asked of a class of
characters for that.
-/

namespace LineShell

namespace Redirection

open LineShell.Utf8

/-! ## Bytes as characters -/

theorem byteView_ofNat {n : Nat} (h : n < 256) : byteView (UInt8.ofNat n) = Char.ofNat n := by
  unfold byteView
  rw [toNat_ofNat_of_lt h]

theorem toNat_byteView (b : UInt8) : (byteView b).toNat = b.toNat := by
  have hsize : b.toNat < 256 := b.toNat_lt
  exact toNat_ofNat (.inl (by omega))

/-- A byte of a character beyond the first 128 lies beyond the first 128 itself. -/
theorem le_toNat_of_mem {c : Char} (hc : 128 ≤ c.toNat) {b : UInt8}
    (hb : b ∈ String.utf8EncodeChar c) : 128 ≤ b.toNat := by
  by_contra hlow
  rw [← UInt8.ofNat_toNat (x := b), mem_utf8EncodeChar_iff (by omega)] at hb
  have hvalue : c.toNat = b.toNat := hb ▸ toNat_byteView b
  omega

/-- The characters beyond the first 128 are all in the class, or none of them is. -/
def AsciiClass (p : Char → Bool) : Prop :=
  ∀ c d : Char, 128 ≤ c.toNat → 128 ≤ d.toNat → p c = p d

theorem isAsciiBlank_of_le {c : Char} (hc : 128 ≤ c.toNat) : Text.isAsciiBlank c = false := by
  rw [← Bool.not_eq_true]
  intro hblank
  unfold Text.isAsciiBlank at hblank
  simp only [Bool.or_eq_true, beq_iff_eq] at hblank
  rcases hblank with (((rfl | rfl) | rfl) | rfl) | rfl <;> exact absurd hc (by decide)

theorem asciiClass_isAsciiBlank : AsciiClass Text.isAsciiBlank := by
  intro c d hc hd
  rw [isAsciiBlank_of_le hc, isAsciiBlank_of_le hd]

theorem inPath_of_le {c : Char} (hc : 128 ≤ c.toNat) : inPath c = true := by
  have hbracket (d : Char) (hd : d.toNat < 128) : c ≠ d := by
    rintro rfl
    omega
  unfold inPath
  simp [isAsciiBlank_of_le hc, hbracket '<' (by decide), hbracket '>' (by decide)]

theorem toNat_lt_of_isAsciiBlank {b : UInt8} (h : Text.isAsciiBlank (byteView b) = true) :
    b.toNat < 128 := by
  by_contra hbeyond
  rw [isAsciiBlank_of_le (by rw [toNat_byteView]; omega)] at h
  cases h

theorem toNat_lt_of_not_inPath {b : UInt8} (h : inPath (byteView b) = false) : b.toNat < 128 := by
  by_contra hbeyond
  rw [inPath_of_le (by rw [toNat_byteView]; omega)] at h
  cases h

theorem asciiClass_inPath : AsciiClass inPath := by
  intro c d hc hd
  rw [inPath_of_le hc, inPath_of_le hd]

/-- A character is in the class exactly if its bytes are. -/
theorem AsciiClass.byteView_eq {p : Char → Bool} (hp : AsciiClass p) {c : Char} {b : UInt8}
    (hb : b ∈ String.utf8EncodeChar c) : p (byteView b) = p c := by
  rcases utf8EncodeChar_cases c with ⟨n, hn, rfl, hbytes⟩ | ⟨hc, -⟩
  · rw [hbytes, List.mem_singleton] at hb
    rw [hb, byteView_ofNat (by omega)]
  · exact hp _ _ (by rw [toNat_byteView]; exact le_toNat_of_mem hc hb) hc

theorem AsciiClass.span_encode {p : Char → Bool} (hp : AsciiClass p) (text : Text) :
    (encode text).takeWhile (p ∘ byteView) = encode (text.takeWhile p) ∧
      (encode text).dropWhile (p ∘ byteView) = encode (text.dropWhile p) := by
  induction text with
  | nil => exact ⟨rfl, rfl⟩
  | cons c rest ih =>
    obtain ⟨htake, hdrop⟩ := ih
    have hbytes : ∀ b ∈ String.utf8EncodeChar c, (p ∘ byteView) b = p c := fun b => hp.byteView_eq
    rw [encode_cons]
    by_cases hc : p c = true
    · have hall : ∀ b ∈ String.utf8EncodeChar c, (p ∘ byteView) b = true :=
        fun b hb => (hbytes b hb).trans hc
      rw [List.takeWhile_append_of_pos hall, List.dropWhile_append_of_pos hall,
        List.takeWhile_cons_of_pos hc, List.dropWhile_cons_of_pos hc, encode_cons, htake, hdrop]
      exact ⟨rfl, rfl⟩
    · obtain ⟨b, bytes, hb⟩ : ∃ b bytes, String.utf8EncodeChar c = b :: bytes :=
        List.exists_cons_of_ne_nil String.utf8EncodeChar_ne_nil
      have hfirst : ¬ (p ∘ byteView) b = true := by
        rwa [hbytes b (hb ▸ List.mem_cons_self)]
      rw [List.takeWhile_cons_of_neg hc, List.dropWhile_cons_of_neg hc, encode_cons, hb,
        List.cons_append, List.takeWhile_cons_of_neg hfirst, List.dropWhile_cons_of_neg hfirst]
      exact ⟨rfl, rfl⟩

/-! ## Operators in encoded lines -/

namespace Operator

theorem toNat_lt_of_mem_symbol (operator : Operator) : ∀ c ∈ operator.symbol, c.toNat < 128 := by
  have hall : operator.symbol.all (·.toNat < 128) = true := by
    rcases operator with _ | (_ | _) | _ | (_ | _) <;> decide
  simpa using hall

/-- A text of the first 128 characters is looked at the same as bytes. -/
theorem isPrefix_encode_iff {symbol : Text} (hsymbol : ∀ c ∈ symbol, c.toNat < 128) (text : Text) :
    symbol <+: (encode text).map byteView ↔ symbol <+: text := by
  induction symbol generalizing text with
  | nil => simp
  | cons d symbol ih =>
    obtain ⟨hd, hrest⟩ := List.forall_mem_cons.1 hsymbol
    cases text with
    | nil => exact Iff.rfl
    | cons c text =>
      rw [encode_cons, List.map_append]
      rcases utf8EncodeChar_cases c with ⟨n, hn, rfl, hbytes⟩ | ⟨hc, b, rest, hbytes, hb, -⟩
      · rw [hbytes, List.map_singleton, List.singleton_append, byteView_ofNat (by omega),
          List.cons_prefix_cons, List.cons_prefix_cons, ih hrest]
      · rw [hbytes, List.map_cons, List.cons_append, List.cons_prefix_cons, List.cons_prefix_cons]
        have hview : d ≠ byteView b := by
          rintro rfl
          rw [toNat_byteView] at hd
          omega
        have hne : d ≠ c := by
          rintro rfl
          omega
        simp [hview, hne]

theorem startsAt_encode (atWordStart : Bool) (text : Text) (operator : Operator) :
    startsAt byteView atWordStart (encode text) operator = startsAt id atWordStart text operator := by
  have hsymbol := isPrefix_encode_iff operator.toNat_lt_of_mem_symbol text
  unfold startsAt
  congr 1
  rw [Bool.eq_iff_iff, beq_iff_eq, beq_iff_eq, List.map_take, List.map_take, List.map_id,
    ← List.prefix_iff_eq_take, ← List.prefix_iff_eq_take, hsymbol]

theorem recognize_encode (atWordStart : Bool) (text : Text) :
    recognize byteView atWordStart (encode text) = recognize id atWordStart text := by
  unfold recognize
  rw [funext (startsAt_encode atWordStart text)]

/-- No operator begins with a byte beyond the first 128. -/
theorem recognize_of_le {b : UInt8} (hb : 128 ≤ b.toNat) (atWordStart : Bool) (rest : Bytes) :
    recognize byteView atWordStart (b :: rest) = none := by
  refine List.find?_eq_none.2 fun operator _ hstarts => ?_
  have hsymbol := beq_iff_eq.1 (Bool.and_eq_true_iff.1 hstarts).2
  obtain ⟨d, symbol, hd⟩ := List.exists_cons_of_ne_nil operator.symbol_ne_nil
  have hlow : d.toNat < 128 := operator.toNat_lt_of_mem_symbol d (hd ▸ List.mem_cons_self)
  rw [hd, List.length_cons, List.take_succ_cons, List.map_cons, List.cons.injEq] at hsymbol
  rw [hsymbol.1, toNat_byteView] at hlow
  omega

end Operator

/-! ## The whole line -/

/-- The pieces of a line of characters in bytes. -/
def Occurrence.encoded (o : Occurrence Char) : Occurrence UInt8 :=
  { operator := o.operator
    symbol := encode o.symbol
    gap := encode o.gap
    path := encode o.path
    after := encode o.after }

def Scan.encoded (cut : Scan Char) : Scan UInt8 :=
  { lead := encode cut.lead
    occurrences := cut.occurrences.map Occurrence.encoded }

theorem Scan.encoded_cons (c : Char) (tail : Scan Char) :
    Scan.encoded { tail with lead := c :: tail.lead } =
      { tail.encoded with lead := String.utf8EncodeChar c ++ tail.encoded.lead } := by
  unfold Scan.encoded
  rw [encode_cons]

/-- A longer character is passed over byte by byte, and no word starts behind it. -/
theorem scan_append_of_le {bytes : Bytes} (hne : bytes ≠ []) (hbytes : ∀ b ∈ bytes, 128 ≤ b.toNat)
    (atWordStart : Bool) (rest : Bytes) :
    scan byteView atWordStart (bytes ++ rest) =
      let tail := scan byteView false rest
      { tail with lead := bytes ++ tail.lead } := by
  induction bytes generalizing atWordStart with
  | nil => exact absurd rfl hne
  | cons b bytes ih =>
    obtain ⟨hb, hbytes⟩ := List.forall_mem_cons.1 hbytes
    have hblank : Text.isAsciiBlank (byteView b) = false :=
      isAsciiBlank_of_le (by rwa [toNat_byteView])
    rw [List.cons_append, scan_cons_of_recognize_eq_none (Operator.recognize_of_le hb _ _), hblank]
    by_cases hlast : bytes = []
    · subst hlast
      rfl
    · rw [ih hlast hbytes]
      rfl

/-- A text of the first 128 characters has one byte for each of them. -/
theorem map_byteView_encode {text : Text} (h : ∀ c ∈ text, c.toNat < 128) :
    (encode text).map byteView = text := by
  induction text with
  | nil => rfl
  | cons c text ih =>
    obtain ⟨hc, htext⟩ := List.forall_mem_cons.1 h
    rw [encode_cons, List.map_append, ih htext]
    rcases utf8EncodeChar_cases c with ⟨n, hn, rfl, hbytes⟩ | ⟨hbeyond, -⟩
    · rw [hbytes, List.map_singleton, byteView_ofNat (by omega), List.singleton_append]
    · omega

theorem length_encode {text : Text} (h : ∀ c ∈ text, c.toNat < 128) :
    (encode text).length = text.length := by
  rw [← List.length_map byteView, map_byteView_encode h]

/-- The bytes of a line are cut where its characters are cut. -/
theorem scan_encode (atWordStart : Bool) (text : Text) :
    scan byteView atWordStart (encode text) = (scan id atWordStart text).encoded := by
  fun_induction scan id atWordStart text with
  | case1 atWordStart text operator h rest body tail ih =>
    have hfound := (Operator.recognize_encode atWordStart text).trans h
    -- The symbol has as many bytes as it has characters.
    have hsymbol : text.take operator.symbol.length = operator.symbol := by
      simpa using Operator.map_take_of_recognize h
    have hlength : (encode operator.symbol).length = operator.symbol.length :=
      length_encode operator.toNat_lt_of_mem_symbol
    have hsplit : encode text = encode operator.symbol ++ encode rest := by
      rw [← encode_append]
      conv_rhs => rw [← hsymbol]
      rw [List.take_append_drop]
    obtain ⟨hgap, hbody⟩ :
        (encode rest).takeWhile (Text.isAsciiBlank ∘ byteView) =
            encode (rest.takeWhile (Text.isAsciiBlank ∘ id)) ∧
          (encode rest).dropWhile (Text.isAsciiBlank ∘ byteView) = encode body :=
      asciiClass_isAsciiBlank.span_encode rest
    obtain ⟨hpath, hbehind⟩ :
        (encode body).takeWhile (inPath ∘ byteView) = encode (body.takeWhile (inPath ∘ id)) ∧
          (encode body).dropWhile (inPath ∘ byteView) = encode (body.dropWhile (inPath ∘ id)) :=
      asciiClass_inPath.span_encode body
    rw [scan_of_recognize_eq_some hfound, hsplit, List.drop_left' hlength, List.take_left' hlength]
    dsimp only
    rw [hgap, hbody, hpath, hbehind, ih, hsymbol]
    rfl
  | case2 => exact scan_nil byteView _
  | case3 atWordStart c rest h tail ih =>
    have ih : scan byteView (Text.isAsciiBlank c) (encode rest) = tail.encoded := ih
    have hnone := (Operator.recognize_encode atWordStart (c :: rest)).trans h
    rw [encode_cons] at hnone ⊢
    -- One byte is passed over like its character, several of them one after the other.
    rcases utf8EncodeChar_cases c with ⟨n, hn, rfl, hbytes⟩ | ⟨hc, -⟩
    · rw [hbytes, List.singleton_append] at hnone ⊢
      rw [scan_cons_of_recognize_eq_none hnone, byteView_ofNat (by omega), ih,
        Scan.encoded_cons, hbytes]
      rfl
    · rw [isAsciiBlank_of_le hc] at ih
      rw [scan_append_of_le String.utf8EncodeChar_ne_nil (fun b => le_toNat_of_mem hc), ih,
        Scan.encoded_cons]

theorem Scan.incomplete?_encoded (cut : Scan Char) :
    cut.encoded.incomplete? = cut.incomplete?.map Occurrence.encoded := by
  have hempty (o : Occurrence Char) : o.encoded.path.isEmpty = o.path.isEmpty := by
    cases hpath : o.path with
    | nil => simp [Occurrence.encoded, hpath, encode]
    | cons c path =>
      simpa [Occurrence.encoded, hpath] using encode_ne_nil (List.cons_ne_nil c path)
  rw [Scan.incomplete?, Scan.encoded, List.find?_map, Scan.incomplete?]
  congr 2
  exact funext hempty

theorem Scan.residual_encoded (cut : Scan Char) :
    cut.encoded.residual = encode cut.residual := by
  simp [Scan.residual, Scan.encoded, Occurrence.encoded, encode, List.flatMap_map,
    List.flatMap_assoc]

end Redirection

end LineShell
