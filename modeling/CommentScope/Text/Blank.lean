/-!
# Blank characters

Two classes of blank characters. `isWhite` holds of the characters with the White_Space property;
`isSpace` holds of those and of the four information separators. `isInlineSpace` leaves out the line
feed and the carriage return.
-/

namespace CommentScope.Text

/-- The characters with the White_Space property. -/
def isWhite (c : Char) : Bool :=
  let n := c.toNat
  (9 ≤ n && n ≤ 13) || n == 0x20 || n == 0x85 || n == 0xA0 || n == 0x1680 ||
    (0x2000 ≤ n && n ≤ 0x200A) || n == 0x2028 || n == 0x2029 || n == 0x202F || n == 0x205F ||
    n == 0x3000

/-- The blank characters: those with the White_Space property and the information separators. -/
def isSpace (c : Char) : Bool := isWhite c || (0x1C ≤ c.toNat && c.toNat ≤ 0x1F)

/-- The blank characters that do not end a line. -/
def isInlineSpace (c : Char) : Bool := isSpace c && c != '\n' && c != '\r'

theorem isSpace_of_isWhite {c : Char} (h : isWhite c = true) : isSpace c = true := by
  simp [isSpace, h]

/-- Every character that the core library calls white is white here. -/
theorem isWhite_of_isWhitespace {c : Char} (h : c.isWhitespace = true) : isWhite c = true := by
  simp only [Char.isWhitespace, Bool.or_eq_true, decide_eq_true_eq] at h
  rcases h with ((rfl | rfl) | rfl) | rfl <;> decide

end CommentScope.Text
