/-!
# Ranges of characters, blanks and numerals

A class of characters is given by a list of inclusive ranges of code points. Membership is
decided by a linear search, which suffices because ASCII is decided before a table is read.
-/

namespace CodeSpan.Text

def inRanges (ranges : List (Nat × Nat)) (c : Char) : Bool :=
  ranges.any fun r => r.1 ≤ c.toNat && c.toNat ≤ r.2

theorem inRanges_iff {ranges : List (Nat × Nat)} {c : Char} :
    inRanges ranges c = true ↔ ∃ r ∈ ranges, r.1 ≤ c.toNat ∧ c.toNat ≤ r.2 := by
  simp [inRanges]

theorem inRanges_append (ranges ranges' : List (Nat × Nat)) (c : Char) :
    inRanges (ranges ++ ranges') c = (inRanges ranges c || inRanges ranges' c) :=
  List.any_append

/-- Classes whose ranges do not meet have no character in common. -/
theorem inRanges_eq_false_of_apart {ranges ranges' : List (Nat × Nat)} {c : Char}
    (hapart : ∀ r ∈ ranges, ∀ r' ∈ ranges', r.2 < r'.1 ∨ r'.2 < r.1)
    (h : inRanges ranges c = true) : inRanges ranges' c = false := by
  obtain ⟨r, hr, hle, hge⟩ := inRanges_iff.1 h
  rw [Bool.eq_false_iff, ne_eq, inRanges_iff]
  rintro ⟨r', hr', hle', hge'⟩
  rcases hapart r hr r' hr' with hlt | hlt <;> omega

/-!
## Blank characters

A character is blank when it has the Unicode property White_Space. Trimming removes blanks
from the ends of a text, and a text that trims to nothing is blank.
-/

def blankRanges : List (Nat × Nat) :=
  [(0x9, 0xD), (0x20, 0x20), (0x85, 0x85), (0xA0, 0xA0), (0x1680, 0x1680), (0x2000, 0x200A),
  (0x2028, 0x2029), (0x202F, 0x202F), (0x205F, 0x205F), (0x3000, 0x3000)]

def isBlank (c : Char) : Bool :=
  inRanges blankRanges c

def trimStart (s : List Char) : List Char :=
  s.dropWhile isBlank

def trimEnd (s : List Char) : List Char :=
  (s.reverse.dropWhile isBlank).reverse

def trim (s : List Char) : List Char :=
  trimEnd (trimStart s)

def isBlankText (s : List Char) : Bool :=
  s.all isBlank

theorem isBlankText_append (s t : List Char) :
    isBlankText (s ++ t) = (isBlankText s && isBlankText t) := by
  simp [isBlankText]

/-!
## Decimal numerals

Counts are written in decimal without leading zeros, and aligned numerals are padded on the
left with spaces up to a given width.
-/

def decimal (n : Nat) : List Char :=
  Nat.toDigits 10 n

def padLeft (width : Nat) (s : List Char) : List Char :=
  List.replicate (width - s.length) ' ' ++ s

end CodeSpan.Text
