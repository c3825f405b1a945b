import CommentScope.Span

/-!
# Concrete syntax trees

The tree a parser gives for a source text: every token, and every comment as an ordinary child among
others. Offsets count octets of the source; offsets and points are taken as reported and need not
agree.

`Concrete.weight` counts nodes. It is the measure by which a list of siblings shrinks while the tree
is read, also when a node takes over the siblings behind it (`weightOfAll_append`).
-/

namespace CommentScope

/-- What a parser reports of one node. `nameChild` is the position among the children of the one
that holds the declared name. -/
structure Concrete.Label where
  type : String
  startByte : Nat
  endByte : Nat
  start : Point
  stop : Point
  missing : Bool
  nameChild : Option Nat
  deriving Inhabited

/-- A concrete syntax tree. -/
inductive Concrete where
  | mk (label : Concrete.Label) (children : List Concrete)
  deriving Inhabited

namespace Concrete

/-- What is reported of the root of a tree. -/
def label : Concrete → Label
  | ⟨l, _⟩ => l

/-- The trees directly below the root. -/
def children : Concrete → List Concrete
  | ⟨_, cs⟩ => cs

/-- Whether the tree is a single node. -/
def isLeaf (c : Concrete) : Bool := c.children.isEmpty

mutual

/-- The number of nodes of a tree. -/
def weight : Concrete → Nat
  | ⟨_, cs⟩ => weightOfAll cs + 1

/-- The number of nodes of all trees of a list. -/
def weightOfAll : List Concrete → Nat
  | [] => 0
  | c :: cs => weight c + weightOfAll cs

end

@[simp] theorem weightOfAll_nil : weightOfAll [] = 0 := rfl

@[simp] theorem weightOfAll_cons (c : Concrete) (cs : List Concrete) :
    weightOfAll (c :: cs) = c.weight + weightOfAll cs := rfl

theorem weight_eq (c : Concrete) : c.weight = weightOfAll c.children + 1 := by
  cases c; simp [weight, children]

theorem weight_pos (c : Concrete) : 0 < c.weight := by
  rw [weight_eq]; omega

@[simp] theorem weightOfAll_append (as bs : List Concrete) :
    weightOfAll (as ++ bs) = weightOfAll as + weightOfAll bs := by
  induction as with
  | nil => simp
  | cons a as ih => simp [ih, Nat.add_assoc]

end Concrete

end CommentScope
