/-!
# Ranges of characters

Classes of characters that a standard gives by ranges are lists of pairs, the first and the last
character of a range.
-/

namespace CommentScope.Text

/-- Whether a character lies in one of some ranges. -/
def inRanges (ranges : List (Nat × Nat)) (c : Char) : Bool :=
  ranges.any fun r ↦ r.1 ≤ c.toNat && c.toNat ≤ r.2

end CommentScope.Text
