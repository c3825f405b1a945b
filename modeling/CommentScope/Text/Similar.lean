/-!
# Similar words

How much two words have in common: the longest common part, and what is in common before it and
behind it. Words are near to each other if they share at least three tenths of all their characters,
each shared character counted once.
-/

namespace CommentScope.Text

/-- The length of the longest common start of two words. -/
def commonStart : List Char → List Char → Nat
  | a :: as, b :: bs => if a = b then commonStart as bs + 1 else 0
  | _, _ => 0

theorem commonStart_le_left (a b : List Char) : commonStart a b ≤ a.length := by
  fun_induction commonStart a b <;> simp_all

/-- A common part of two words: where it begins in each of them, and its length. -/
structure CommonPart where
  left : Nat
  right : Nat
  length : Nat
  deriving DecidableEq

/-- The longest common part that begins at the start of the first word; of several the first. -/
def longestAtStart (a : List Char) (left right : Nat) : List Char → CommonPart
  | [] => ⟨left, right, 0⟩
  | b :: bs =>
    let here : CommonPart := ⟨left, right, commonStart a (b :: bs)⟩
    let later := longestAtStart a left (right + 1) bs
    if here.length < later.length then later else here

/-- The longest common part; of several the first. -/
def longestCommon (left : Nat) (b : List Char) : List Char → CommonPart
  | [] => ⟨left, 0, 0⟩
  | a :: as =>
    let here := longestAtStart (a :: as) left 0 b
    let later := longestCommon (left + 1) b as
    if here.length < later.length then later else here

/-- The number of characters that two words have in common. -/
def shared : (fuel : Nat) → List Char → List Char → Nat
  | 0, _, _ => 0
  | fuel + 1, a, b =>
    let part := longestCommon 0 b a
    if part.length = 0 then 0
    else
      shared fuel (a.take part.left) (b.take part.right) + part.length +
        shared fuel (a.drop (part.left + part.length)) (b.drop (part.right + part.length))

/-- Whether two words are near to each other. -/
def isNear (a b : String) : Bool :=
  decide (3 * (a.length + b.length) ≤ 10 * shared a.length a.toList b.toList)

/-- The words of a list that are near to a given one, in alphabetical order. -/
def near (words : List String) (word : String) : List String :=
  (words.filter fun w ↦ isNear w word).mergeSort fun a b ↦ decide (a ≤ b)

end CommentScope.Text
