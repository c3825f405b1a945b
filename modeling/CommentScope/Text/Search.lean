/-!
# Searching and splitting text

Text is searched as a list of characters. `isInfix` decides whether one list occurs inside another
(`isInfix_iff`); `find?` says after how many characters it first occurs; `splitOn` cuts a list at a
character and drops it, so that the pieces joined by that character give the list back
(`joinWith_splitOn`).
-/

namespace CommentScope.Text

/-- Whether `part` occurs in a text. -/
def isInfix (part : List Char) : List Char → Bool
  | [] => part.isEmpty
  | c :: cs => part.isPrefixOf (c :: cs) || isInfix part cs

/-- **`isInfix` decides containment.** -/
theorem isInfix_iff (part text : List Char) : isInfix part text = true ↔ part <:+: text := by
  induction text with
  | nil => simp [isInfix]
  | cons c cs ih => simp [isInfix, List.infix_cons_iff, ih]

/-- The number of characters before the first occurrence of `part`. -/
def find? (part : List Char) : List Char → Option Nat
  | [] => if part.isEmpty then some 0 else none
  | c :: cs => if part.isPrefixOf (c :: cs) then some 0 else (find? part cs).map (· + 1)

/-- **What is found is there.** -/
theorem prefix_of_find? {part text : List Char} {n : Nat} (h : find? part text = some n) :
    part <+: text.drop n := by
  induction text generalizing n with
  | nil =>
    rw [find?, Option.ite_none_right_eq_some] at h
    rw [List.isEmpty_iff.1 h.1]
    exact List.nil_prefix
  | cons c cs ih =>
    rw [find?] at h
    split at h
    · cases h
      exact List.isPrefixOf_iff_prefix.1 ‹_›
    · obtain ⟨m, hm, rfl⟩ := Option.map_eq_some_iff.1 h
      exact ih hm

/-- Cuts a text at every occurrence of a character. -/
def splitOn (sep : Char) : List Char → List (List Char)
  | [] => [[]]
  | c :: cs =>
    match splitOn sep cs with
    | [] => [[c]]
    | piece :: pieces => if c = sep then [] :: piece :: pieces else (c :: piece) :: pieces

/-- Joins pieces by a character. -/
def joinWith (sep : Char) : List (List Char) → List Char
  | [] => []
  | [piece] => piece
  | piece :: pieces => piece ++ sep :: joinWith sep pieces

theorem splitOn_ne_nil (sep : Char) (cs : List Char) : splitOn sep cs ≠ [] := by
  induction cs with
  | nil => simp [splitOn]
  | cons c cs ih =>
    unfold splitOn
    split
    · simp
    · split <;> simp

/-- A text is cut at every occurrence. -/
theorem not_mem_of_mem_splitOn {sep : Char} {cs piece : List Char} (h : piece ∈ splitOn sep cs) :
    sep ∉ piece := by
  induction cs generalizing piece with
  | nil =>
    rw [List.mem_singleton.1 h]
    exact List.not_mem_nil
  | cons c cs ih =>
    rw [splitOn] at h
    split at h
    · exact absurd ‹_› (splitOn_ne_nil sep cs)
    · rename_i first rest hsplit
      rw [hsplit] at ih
      split at h
      · rcases List.mem_cons.1 h with rfl | h
        · exact List.not_mem_nil
        · exact ih h
      · rename_i hc
        rcases List.mem_cons.1 h with rfl | h
        · rw [List.mem_cons, not_or]
          exact ⟨fun heq ↦ hc heq.symm, ih List.mem_cons_self⟩
        · exact ih (List.mem_cons_of_mem _ h)

/-- **Splitting loses nothing.** -/
theorem joinWith_splitOn (sep : Char) (cs : List Char) : joinWith sep (splitOn sep cs) = cs := by
  induction cs with
  | nil => simp [splitOn, joinWith]
  | cons c cs ih =>
    have hne := splitOn_ne_nil sep cs
    unfold splitOn
    cases h : splitOn sep cs with
    | nil => exact absurd h hne
    | cons piece pieces =>
      rw [h] at ih
      by_cases hc : c = sep
      · simp only [hc, if_true, joinWith, List.nil_append]
        rw [← ih]
      · simp only [if_neg hc]
        cases pieces with
        | nil => simpa [joinWith] using ih
        | cons p ps => simpa [joinWith] using ih

/-- Drops every trailing occurrence of the characters that satisfy `p`. -/
def trimRight (p : Char → Bool) (cs : List Char) : List Char := (cs.reverse.dropWhile p).reverse

theorem isPrefix_trimRight (p : Char → Bool) (cs : List Char) : trimRight p cs <+: cs := by
  rw [trimRight, ← List.reverse_suffix, List.reverse_reverse]
  exact List.dropWhile_suffix p

/-- Drops the characters that satisfy `p` at both ends. -/
def trim (p : Char → Bool) (cs : List Char) : List Char := trimRight p (cs.dropWhile p)

end CommentScope.Text
