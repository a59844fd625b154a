import CrossChain.Text.Basic

/-!
# Blanks and line breaks

The code points that separate words and the code points that end lines.  Both sets are wider than
ASCII: the blanks are the Unicode spaces with the four information separators, and a line also ends
at a vertical tab, a form feed, three of those separators, a next-line and the two Unicode
separators of lines and paragraphs.
-/

namespace CrossChain

namespace CodePoint

/-- The code points that count as blank space. -/
def isBlank (c : CodePoint) : Bool :=
  (9 ≤ c.val && c.val ≤ 13) || (0x1C ≤ c.val && c.val ≤ 0x20) || c.val == 0x85 || c.val == 0xA0 ||
    c.val == 0x1680 || (0x2000 ≤ c.val && c.val ≤ 0x200A) || c.val == 0x2028 || c.val == 0x2029 ||
    c.val == 0x202F || c.val == 0x205F || c.val == 0x3000

/-- The blanks of ASCII text: space, tab, line feed, vertical tab, form feed, carriage return. -/
def isAsciiBlank (c : CodePoint) : Bool := (9 ≤ c.val && c.val ≤ 13) || c.val == 32

/-- The code points that end a line. -/
def isLineBreak (c : CodePoint) : Bool :=
  (10 ≤ c.val && c.val ≤ 13) || (0x1C ≤ c.val && c.val ≤ 0x1E) || c.val == 0x85 ||
    c.val == 0x2028 || c.val == 0x2029

theorem isAsciiBlank_iff {c : CodePoint} :
    c.isAsciiBlank = true ↔ (9 ≤ c.val ∧ c.val ≤ 13) ∨ c.val = 32 := by
  simp only [isAsciiBlank, Bool.or_eq_true, Bool.and_eq_true, decide_eq_true_eq, beq_iff_eq]

theorem isBlank_of_isAsciiBlank {c : CodePoint} (h : c.isAsciiBlank) : c.isBlank := by
  rw [isAsciiBlank_iff] at h
  simp only [isBlank, Bool.or_eq_true, Bool.and_eq_true, decide_eq_true_eq, beq_iff_eq]
  omega

end CodePoint

namespace Text

/-- The text without the blanks at its two ends. -/
def trim (s : Text) : Text := s.strip CodePoint.isBlank

/-- The lines of a text without their line breaks.  A carriage return followed by a line feed is
one break, and a break at the end opens no further line. -/
def lines : Text → List Text
  | [] => []
  | [c] => if c.isLineBreak then [[]] else [[c]]
  | c :: d :: rest =>
    if c = 13 ∧ d = 10 then [] :: lines rest
    else if c.isLineBreak then [] :: lines (d :: rest)
    else match lines (d :: rest) with
      | [] => [[c]]
      | line :: more => (c :: line) :: more

end Text

end CrossChain
