import CommentScope.Language
import CommentScope.Role
import CommentScope.Trivia

/-!
# Syntax trees in an arena

The nodes of a tree stand in one array and name each other by position: a list of children
downward, one parent upward. Node `0` is the root.

What is checked, and therefore part of the type `Tree`, is the upward direction: the root has no
parent and every other parent stands before its child. Hence the chain of ancestors of a node is
finite and strictly decreasing (`parent?_lt`). Nothing is known of the child lists: a child may be
named twice, stand before its parent, be counted from the end by a negative number, or not exist.
-/

namespace CommentScope

/-- A node or a token. Tokens are the nodes with a text; they alone carry trivia. -/
structure Node where
  type : String
  role : Role
  parent : Option Nat
  children : Array Int
  span : Span
  name : Option String
  text : Option String
  leading : List Trivia
  trailing : List Trivia

/-- Whether the node is a token. -/
def Node.isToken (n : Node) : Bool := n.text.isSome

/-- A node as it is handed over for a tree: with the position it claims, and with a parent that has
not been checked. -/
structure Tree.Row where
  index : Int
  parent : Option Int
  node : Node

/-- Why rows do not form a tree. -/
inductive Tree.Fault where
  | empty
  | misplaced (position : Nat) (index : Int)
  | rootWithParent
  | badParent (position : Nat) (parent : Option Int)
  deriving DecidableEq

namespace Tree.Fault

/-- The wording of a fault; an absent parent is written `None`. -/
def message : Fault → String
  | .empty => "SyntaxTree requires at least a root node"
  | .misplaced position index => s!"node at position {position} has index {index}"
  | .rootWithParent => "root node must not have a parent"
  | .badParent position (some parent) => s!"node {position} has invalid parent {parent}"
  | .badParent position none => s!"node {position} has invalid parent None"

end Tree.Fault

/-- An arena of nodes in which every parent stands before its children. -/
structure Tree where
  nodes : Array Node
  language : Option Language
  nonempty : 0 < nodes.size
  root_parent : nodes[0].parent = none
  parent_before : ∀ i (h : i < nodes.size), 0 < i → ∃ p, nodes[i].parent = some p ∧ p < i

namespace Tree

namespace Row

/-- What is wrong with the row at a position, if anything. The claimed position is examined before
the parent. -/
def fault? (position : Nat) (r : Row) : Option Fault :=
  if r.index ≠ position then some (.misplaced position r.index)
  else if position = 0 then
    if r.parent.isSome then some .rootWithParent else none
  else match r.parent with
    | some p => if 0 ≤ p ∧ p < position then none else some (.badParent position (some p))
    | none => some (.badParent position none)

/-- The node of a row, with the row's parent. -/
def toNode (r : Row) : Node := { r.node with parent := r.parent.map Int.toNat }

theorem parent_toNode_zero {r : Row} (h : r.fault? 0 = none) : r.toNode.parent = none := by
  unfold fault? at h
  by_cases hi : r.index = ((0 : Nat) : Int)
  · cases hp : r.parent with
    | none => simp [toNode, hp]
    | some p => simp_all
  · rw [if_pos hi] at h
    simp at h

theorem parent_toNode_pos {r : Row} {i : Nat} (h : r.fault? i = none) (hi : 0 < i) :
    ∃ p, r.toNode.parent = some p ∧ p < i := by
  unfold fault? at h
  by_cases hx : r.index ≠ (i : Int)
  · simp [hx] at h
  · have hi0 : i ≠ 0 := by omega
    cases hp : r.parent with
    | none => simp_all
    | some p =>
      by_cases hb : 0 ≤ p ∧ p < i
      · exact ⟨p.toNat, by simp [toNode, hp], by omega⟩
      · simp_all

end Row

/-- The first fault among rows. -/
def firstFault? (rows : Array Row) : Option Fault :=
  rows.toList.zipIdx.findSome? fun (r, i) ↦ r.fault? i

theorem fault?_of_firstFault? {rows : Array Row} (h : firstFault? rows = none) (i : Nat)
    (hi : i < rows.size) : rows[i].fault? i = none := by
  unfold firstFault? at h
  rw [List.findSome?_eq_none_iff] at h
  exact h (rows[i], i) (by
    rw [List.mem_zipIdx_iff_getElem?]
    simp [hi])

/-- The tree with the given rows, in which each row must stand at the position it claims, the first
row has no parent and every other row has an earlier row as its parent. -/
def ofRows (language : Option Language) (rows : Array Row) : Except Fault Tree :=
  if h0 : 0 < rows.size then
    match h : firstFault? rows with
    | some f => .error f
    | none => .ok {
        nodes := rows.map Row.toNode
        language
        nonempty := by simpa using h0
        root_parent := by simpa using Row.parent_toNode_zero (fault?_of_firstFault? h 0 h0)
        parent_before := fun i hi hpos ↦ by
          have hi' : i < rows.size := by simpa using hi
          simpa using Row.parent_toNode_pos (fault?_of_firstFault? h i hi') hpos }
  else .error .empty

variable (t : Tree)

/-- The number of nodes. -/
abbrev size : Nat := t.nodes.size

/-- The position that an index names; a negative index counts from the end. -/
def resolve? (i : Int) : Option (Fin t.size) :=
  if h : 0 ≤ i ∧ i < t.size then some ⟨i.toNat, by omega⟩
  else if h : i < 0 ∧ 0 ≤ i + t.size then some ⟨(i + t.size).toNat, by omega⟩
  else none

/-- The node at a position. -/
def node (i : Fin t.size) : Node := t.nodes[i]

/-- The position of the root. -/
def root : Fin t.size := ⟨0, t.nonempty⟩

/-- The parent of a node; the root alone has none. -/
def parent? (i : Fin t.size) : Option (Fin t.size) :=
  match h : (t.node i).parent with
  | none => none
  | some p => some ⟨p, by
      by_cases hi : 0 < i.val
      · obtain ⟨q, hq, hlt⟩ := t.parent_before i.val i.isLt hi
        have : p = q := Option.some.inj (h.symm.trans hq)
        have := i.isLt
        omega
      · have h0 : i = t.root := Fin.ext (by simp only [root]; omega)
        rw [h0] at h
        exact absurd (t.root_parent.symm.trans h) (by simp)⟩

theorem val_parent? (i : Fin t.size) : (t.parent? i).map Fin.val = (t.node i).parent := by
  unfold parent?
  split <;> simp_all

/-- **A parent stands before its children.** -/
theorem parent?_lt {i p : Fin t.size} (h : t.parent? i = some p) : p < i := by
  have hv : (t.node i).parent = some p.val := by rw [← t.val_parent? i, h]; rfl
  by_cases hi : 0 < i.val
  · obtain ⟨q, hq, hlt⟩ := t.parent_before i.val i.isLt hi
    have : p.val = q := Option.some.inj (hv.symm.trans hq)
    exact Fin.lt_def.2 (by omega)
  · have h0 : i = t.root := Fin.ext (by simp only [root]; omega)
    rw [h0] at hv
    exact absurd (t.root_parent.symm.trans hv) (by simp)

/-- The root has no parent. -/
theorem parent?_root : t.parent? t.root = none := by
  have h := t.val_parent? t.root
  rw [show (t.node t.root).parent = none from t.root_parent] at h
  simpa using h

/-- The children of a node in order, or nothing if one of them does not exist. -/
def children? (i : Fin t.size) : Option (List (Fin t.size)) :=
  (t.node i).children.toList.mapM t.resolve?

end Tree

end CommentScope
