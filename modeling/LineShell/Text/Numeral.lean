import LineShell.Text.Blank

/-!
# Reading numerals

Numbers reach the shell as words: history sizes and indices as naturals below `2 ^ 64`, exit
codes as integers of 32 bits.  Both are read from left to right with an optional sign, and the
first fault met is the one reported: at each character an invalid digit counts before an
overflow, so a numeral that is already too large is refused before the characters behind it are
looked at.
-/

namespace LineShell.Numeral

/-- Why a word is no numeral. -/
inductive Fault where
  | empty
  /-- A character is no digit, or a sign stands alone. -/
  | invalidDigit
  /-- The value read so far exceeds the limit. -/
  | tooLarge
  deriving DecidableEq, Repr

def Fault.message : Fault → Text
  | .empty => "cannot parse integer from empty string".toList
  | .invalidDigit => "invalid digit found in string".toList
  | .tooLarge => "number too large to fit in target type".toList

/-- Largest size or index: sizes have 64 bits. -/
def maxSize : Nat := 18446744073709551615

/-- Largest exit code: exit codes are signed and have 32 bits. -/
def maxCode : Nat := 2147483647

def digit? (c : Char) : Option Nat :=
  if c.isDigit then some (c.toNat - '0'.toNat) else none

/-- Reads digits onto `value`, which must stay within `limit`. -/
def readDigits (limit : Nat) : Nat → Text → Except Fault Nat
  | value, [] => .ok value
  | value, c :: rest =>
    match digit? c with
    | none => .error .invalidDigit
    | some d =>
      if value * 10 + d ≤ limit then readDigits limit (value * 10 + d) rest
      else .error .tooLarge

def readUnsigned (limit : Nat) : Text → Except Fault Nat
  | [] => .error .invalidDigit
  | text => readDigits limit 0 text

/-- Reads a size: digits, after a plus sign if there is one. -/
def readSize : Text → Except Fault Nat
  | [] => .error .empty
  | '+' :: rest => readUnsigned maxSize rest
  | text => readUnsigned maxSize text

/-- Reads an exit code: digits, after a plus or minus sign if there is one.  There is one more
negative code than there are positive ones. -/
def readCode : Text → Except Fault Int
  | [] => .error .empty
  | '+' :: rest => (readUnsigned maxCode rest).map Int.ofNat
  | '-' :: rest => (readUnsigned (maxCode + 1) rest).map fun n => -(n : Int)
  | text => (readUnsigned maxCode text).map Int.ofNat

end LineShell.Numeral
