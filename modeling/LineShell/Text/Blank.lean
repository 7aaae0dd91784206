/-!
# Text and blanks

`Text` is the alphabet of the shell: a list of Unicode scalar values.  Two notions of a blank
run through the library, and keeping them apart matters.

* `isBlank` is the Unicode property `White_Space`, the separator of words and what trimming
  removes.
* `isAsciiBlank` is the smaller class that separates the parts of a redirection.  It leaves out
  the vertical tab, which is a blank of the first kind only.

`isBlank_of_isAsciiBlank` is the one inclusion that holds between them.
-/

namespace LineShell

/-- Text as a list of Unicode scalar values. -/
abbrev Text := List Char

/-- Raw bytes, as files and streams hold them. -/
abbrev Bytes := List UInt8

namespace Text

/-- The Unicode property `White_Space`: twenty-five code points in ten ranges. -/
def isBlank (c : Char) : Bool :=
  let n := c.toNat
  (0x09 ≤ n && n ≤ 0x0D) || n == 0x20 || n == 0x85 || n == 0xA0 || n == 0x1680 ||
    (0x2000 ≤ n && n ≤ 0x200A) || n == 0x2028 || n == 0x2029 || n == 0x202F || n == 0x205F ||
    n == 0x3000

/-- The blanks inside a redirection: space, tab, line feed, form feed, carriage return. -/
def isAsciiBlank (c : Char) : Bool :=
  c == ' ' || c == '\t' || c == '\n' || c == '\x0c' || c == '\r'

/-- Every blank of a redirection also separates words. -/
theorem isBlank_of_isAsciiBlank {c : Char} (h : isAsciiBlank c = true) : isBlank c = true := by
  simp only [isAsciiBlank, Bool.or_eq_true, beq_iff_eq] at h
  rcases h with (((rfl | rfl) | rfl) | rfl) | rfl <;> decide

example : isBlank '\x0b' = true ∧ isAsciiBlank '\x0b' = false := by decide

/-- The decimal digits of a natural number. -/
def ofNat (n : Nat) : Text := Nat.toDigits 10 n

end Text

end LineShell
