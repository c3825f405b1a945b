import CommentScope.Finding
import CommentScope.Proofs.Layout
import Mathlib.Data.List.FinRange

/-!
# Walks follow the arena

In the tree of laid out syntax the nodes stand in the order in which a walk meets them. A walk
therefore finishes, and passes what the nodes of the arena have to show, from the first to the last
(`walkRounds_toTree`). The induction is over the syntax: the entries of the stack for some siblings
are worked off and leave what was below them on the stack.
-/

namespace CommentScope

open Annotated

namespace Tree

variable (t : Tree)

/-! ### Where syntax lies -/

/-- Pieces of syntax lie in the arena, side by side from position `i` on. -/
def Lies (parent : Option Nat) (i : Nat) (as : List Annotated) : Prop :=
  layoutAll parent i as <+: t.nodes.toList.drop i

variable {t} {parent : Option Nat} {i : Nat} {a : Annotated} {as : List Annotated}

theorem Lies.head (h : t.Lies parent i (a :: as)) : t.nodes[i]? = some (a.head parent i) := by
  obtain ⟨rest, hrest⟩ := h
  have hget := congrArg List.head? hrest
  rw [layoutAll, layout_eq_cons, List.cons_append, List.cons_append, List.head?_cons,
    List.head?_drop] at hget
  exact (Array.getElem?_toList).symm.trans hget.symm

theorem Lies.lt (h : t.Lies parent i (a :: as)) : i < t.size :=
  (Array.getElem?_eq_some_iff.1 h.head).1

theorem Lies.node (h : t.Lies parent i (a :: as)) : t.node ⟨i, h.lt⟩ = a.head parent i :=
  Option.some.inj ((Array.getElem?_eq_getElem h.lt).symm.trans h.head)

theorem Lies.below (h : t.Lies parent i (a :: as)) : t.Lies (some i) (i + 1) a.children := by
  obtain ⟨rest, hrest⟩ := h
  refine ⟨layoutAll parent (i + a.size) as ++ rest, ?_⟩
  rw [← List.drop_drop, ← hrest, layoutAll, layout_eq_cons]
  simp

theorem Lies.behind (h : t.Lies parent i (a :: as)) : t.Lies parent (i + a.size) as := by
  obtain ⟨rest, hrest⟩ := h
  refine ⟨rest, ?_⟩
  rw [← List.drop_drop, ← hrest, layoutAll, List.append_assoc,
    List.drop_left' (length_layout parent i a)]

theorem nodes_toTree (language : Option Language) (root : Annotated) :
    (root.toTree language).nodes.toList = layoutAll none 0 [root] := by
  simp [toTree, layoutAll]

/-- All of a tree lies at its start. -/
theorem lies_toTree (language : Option Language) (root : Annotated) :
    (root.toTree language).Lies none 0 [root] := by
  refine ⟨[], ?_⟩
  rw [nodes_toTree, List.append_nil, List.drop_zero]

theorem size_toTree (language : Option Language) (root : Annotated) :
    (root.toTree language).size = root.size := by
  simp [size, toTree, length_layout]

/-! ### Working off the stack -/

/-- What a walk passes at a position, if there is a node. -/
def visitAt (t : Tree) (descend : Bool) (i : Nat) : List t.Event :=
  if h : i < t.size then t.visit descend ⟨i, h⟩ else []

theorem resolve?_natCast (h : i < t.size) : t.resolve? (i : Int) = some ⟨i, h⟩ := by
  rw [resolve?, dif_pos ⟨Int.natCast_nonneg i, Int.ofNat_lt.2 h⟩]
  rfl

theorem children_head (parent : Option Nat) (i : Nat) (a : Annotated) :
    (a.head parent i).children = refs (starts (i + 1) a.children) := by
  cases a <;> rfl

/-- **Siblings are worked off with all that is below them**, and the rest of the stack stays. -/
theorem runStack_starts (h : t.Lies parent i as) (descend : Bool) {depth : Nat}
    (hd : sizeAll as ≤ depth) (seen : Array t.Event) (stack : List (Nat × Int)) :
    t.runStack descend seen ((starts i as).map (fun k : Nat ↦ (depth, Int.ofNat k)) ++ stack) =
      t.runStack descend
        (seen ++ ((List.range' i (sizeAll as)).flatMap (t.visitAt descend)).toArray) stack := by
  induction as using forest_induction generalizing parent i depth seen stack with
  | nil => simp [starts, sizeAll]
  | cons a as ihc ih =>
    have hsize : sizeAll (a :: as) = sizeAll a.children + 1 + sizeAll as := by rw [sizeAll, size_eq]
    obtain ⟨depth, rfl⟩ : ∃ d, depth = d + 1 := Nat.exists_eq_succ_of_ne_zero (by omega)
    have hbelow : (t.node ⟨i, h.lt⟩).children.toList.map (depth, ·) =
        (starts (i + 1) a.children).map fun k : Nat ↦ (depth, Int.ofNat k) := by
      rw [h.node, children_head, refs, List.map_map]
      rfl
    have hvisit : t.visitAt descend i = t.visit descend ⟨i, h.lt⟩ := by rw [visitAt, dif_pos h.lt]
    have hrange : List.range' i (sizeAll (a :: as)) =
        i :: (List.range' (i + 1) (sizeAll a.children) ++
          List.range' (i + a.size) (sizeAll as)) := by
      rw [hsize, Nat.add_right_comm, List.range'_succ, ← List.range'_append_1, size_eq,
        Nat.add_right_comm i, Nat.add_assoc i]
    rw [starts, List.map_cons, List.cons_append, Int.ofNat_eq_natCast,
      runStack_cons (resolve?_natCast h.lt), hbelow, ihc h.below (by omega),
      ih h.behind (by omega), hrange, ← hvisit]
    simp

/-- What is passed at all positions is what is passed at all nodes. -/
theorem flatMap_visitAt (t : Tree) (descend : Bool) :
    (List.range' 0 t.size).flatMap (t.visitAt descend) =
      (List.finRange t.size).flatMap (t.visit descend) := by
  rw [← List.range_eq_range', ← List.map_coe_finRange_eq_range, List.flatMap_map]
  congr 1
  funext i
  rw [visitAt, dif_pos i.isLt]

/-- **A walk follows the arena.** -/
theorem walkRounds_toTree (language : Option Language) (root : Annotated) (descend : Bool)
    {rounds : Nat} (hr : 0 < rounds) :
    let t := root.toTree language
    t.walkRounds descend rounds =
      ⟨(List.finRange t.size).flatMap (t.visit descend), .finished⟩ := by
  intro t
  have hsize : sizeAll [root] = t.size := by rw [size_toTree, sizeAll, sizeAll, Nat.add_zero]
  have hd : sizeAll [root] ≤ rounds * t.size := by
    rw [hsize]
    exact Nat.le_mul_of_pos_left _ hr
  have hrun := runStack_starts (lies_toTree language root) descend hd #[] []
  rw [walkRounds]
  refine hrun.trans ?_
  rw [runStack, hsize]
  show Walk.mk (#[] ++ ((List.range' 0 t.size).flatMap (t.visitAt descend)).toArray).toList _ = _
  rw [flatMap_visitAt, Array.toList_append]
  rfl

end Tree

end CommentScope
