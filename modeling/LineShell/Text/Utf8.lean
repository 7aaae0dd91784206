import LineShell.Text.Blank

/-!
# UTF-8

Text is encoded to bytes with `encode`.  The way back is a machine that reads one byte at a time
and holds at most one unfinished character, a `Pending`.  It yields a list of symbols: a
character, or `none` for a maximal run of bytes that begins a character and cannot be continued.

* `decode?` accepts the bytes only if no symbol is missing.
* `decodeLossy` puts U+FFFD, the replacement character, for each missing one.

The second byte of a character is what rules out overlong forms, surrogates and values beyond
U+10FFFF, so `Pending` carries the range that the next byte must lie in.
-/

namespace LineShell.Utf8

def encode (text : Text) : Bytes := text.flatMap String.utf8EncodeChar

/-- An unfinished character. -/
structure Pending where
  /-- How many continuation bytes must follow the next one. -/
  more : Nat
  /-- Least value of the next byte. -/
  low : UInt8
  /-- Greatest value of the next byte. -/
  high : UInt8
  /-- The bits read so far. -/
  bits : Nat
  deriving DecidableEq, Repr

/-- What a byte means where a character may begin: a whole character, the beginning of a longer
one, or neither. -/
inductive Lead where
  | whole (c : Char)
  | begins (pending : Pending)
  | malformed

/-- The meaning of a byte where a character may begin. -/
def lead (b : UInt8) : Lead :=
  let n := b.toNat
  if n < 0x80 then .whole (Char.ofNat n)
  else if 0xC2 ≤ n ∧ n ≤ 0xDF then .begins ⟨0, 0x80, 0xBF, n - 0xC0⟩
  else if n = 0xE0 then .begins ⟨1, 0xA0, 0xBF, 0⟩
  else if n = 0xED then .begins ⟨1, 0x80, 0x9F, 0xD⟩
  else if 0xE1 ≤ n ∧ n ≤ 0xEF then .begins ⟨1, 0x80, 0xBF, n - 0xE0⟩
  else if n = 0xF0 then .begins ⟨2, 0x90, 0xBF, 0⟩
  else if 0xF1 ≤ n ∧ n ≤ 0xF3 then .begins ⟨2, 0x80, 0xBF, n - 0xF0⟩
  else if n = 0xF4 then .begins ⟨2, 0x80, 0x8F, 4⟩
  else .malformed

/-- One byte where a character may begin: the symbols it completes and what is unfinished. -/
def start (b : UInt8) : List (Option Char) × Option Pending :=
  match lead b with
  | .whole c => ([some c], none)
  | .begins pending => ([], some pending)
  | .malformed => ([none], none)

/-- One byte: the symbols it completes and what is unfinished after it.  A byte that cannot
continue the unfinished character ends it as malformed and is then read afresh. -/
def step : Option Pending → UInt8 → List (Option Char) × Option Pending
  | none, b => start b
  | some pending, b =>
    if pending.low ≤ b ∧ b ≤ pending.high then
      let bits := pending.bits * 64 + (b.toNat - 0x80)
      match pending.more with
      | 0 => ([some (Char.ofNat bits)], none)
      | more + 1 => ([], some ⟨more, 0x80, 0xBF, bits⟩)
    else
      let (symbols, unfinished) := start b
      (none :: symbols, unfinished)

/-- The symbols of the bytes that follow an unfinished character. -/
def symbolsFrom : Option Pending → Bytes → List (Option Char)
  | none, [] => []
  | some _, [] => [none]
  | pending, b :: rest => (step pending b).1 ++ symbolsFrom (step pending b).2 rest

/-- The symbols of a byte sequence, `none` for each malformed part. -/
def symbols (bytes : Bytes) : List (Option Char) := symbolsFrom none bytes

/-- The text that the bytes encode, if they are well formed. -/
def decode? (bytes : Bytes) : Option Text := (symbols bytes).mapM id

/-- The text that the bytes encode, with U+FFFD for each malformed part. -/
def decodeLossy (bytes : Bytes) : Text := (symbols bytes).map (·.getD '\uFFFD')

end LineShell.Utf8
