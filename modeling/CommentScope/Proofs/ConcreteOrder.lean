import CommentScope.Proofs.Arranged
import CommentScope.Tree.Lowering
import Mathlib.Data.List.Chain

/-!
# Concrete trees in order

What a parser reports of positions is unchecked. `Concrete.OrderedBy` is what a parser keeps to,
for rows as well as for offsets: no node ends before it starts, children lie within their parent,
and siblings follow each other. What the reader needs of it is a property of sibling lists
(`Concrete.InOrder`), which passes to all lists that the reader goes on with, also to the children
of a node together with the siblings it adopts.
-/

namespace CommentScope

namespace Concrete

mutual

/-- All nodes of a tree, each before what is below it. -/
def nodes : Concrete → List Concrete
  | ⟨l, cs⟩ => ⟨l, cs⟩ :: nodesAll cs

/-- All nodes of the trees of a list. -/
def nodesAll : List Concrete → List Concrete
  | [] => []
  | c :: cs => nodes c ++ nodesAll cs

end

/-- Whether a tree is in order, if its nodes reach from `lo` to `hi`: every node starts no later
than it ends, its children lie within it, and each of them starts no earlier than the one before it
ends. -/
def OrderedBy (lo hi : Label → Int) (c : Concrete) : Prop :=
  ∀ n ∈ c.nodes, lo n.label ≤ hi n.label ∧
    (∀ d ∈ n.children, lo n.label ≤ lo d.label ∧ hi d.label ≤ hi n.label) ∧
    n.children.IsChain fun a b ↦ hi a.label ≤ lo b.label

/-- The row on which a node starts. -/
def Label.startRow (l : Label) : Int := l.start.row

/-- The row on which a node ends. -/
def Label.stopRow (l : Label) : Int := l.stop.row

/-- Whether the rows of a tree are in order. -/
def RowsInOrder (c : Concrete) : Prop := c.OrderedBy Label.startRow Label.stopRow

theorem nodesAll_eq_flatMap (cs : List Concrete) : nodesAll cs = cs.flatMap nodes := by
  induction cs with
  | nil => rfl
  | cons c cs ih => rw [nodesAll, ih, List.flatMap_cons]

theorem nodes_eq_cons (c : Concrete) : c.nodes = c :: c.children.flatMap nodes := by
  obtain ⟨l, cs⟩ := c
  rw [nodes, nodesAll_eq_flatMap]
  rfl

theorem self_mem_nodes (c : Concrete) : c ∈ c.nodes := by
  rw [nodes_eq_cons]
  exact List.mem_cons_self

theorem mem_nodes_of_mem_children {c d n : Concrete} (hd : d ∈ c.children) (hn : n ∈ d.nodes) :
    n ∈ c.nodes := by
  rw [nodes_eq_cons]
  exact List.mem_cons_of_mem _ (List.mem_flatMap.2 ⟨d, hd, hn⟩)

variable {lo hi : Label → Int}

theorem OrderedBy.child {c d : Concrete} (h : c.OrderedBy lo hi) (hd : d ∈ c.children) :
    d.OrderedBy lo hi :=
  fun n hn ↦ h n (mem_nodes_of_mem_children hd hn)

theorem OrderedBy.lo_le_hi {c : Concrete} (h : c.OrderedBy lo hi) : lo c.label ≤ hi c.label :=
  (h c c.self_mem_nodes).1

/-! ### Sibling lists -/

/-- Whether siblings follow each other, each of them in order itself. -/
def InOrder (lo hi : Label → Int) (cs : List Concrete) : Prop :=
  (cs.Pairwise fun a b ↦ hi a.label ≤ lo b.label) ∧ ∀ c ∈ cs, c.OrderedBy lo hi

/-- Neighbours that follow each other do so over any distance, since none ends before it starts. -/
theorem pairwise_of_isChain {cs : List Concrete} (hle : ∀ c ∈ cs, lo c.label ≤ hi c.label)
    (h : cs.IsChain fun a b ↦ hi a.label ≤ lo b.label) :
    cs.Pairwise fun a b ↦ hi a.label ≤ lo b.label := by
  induction cs with
  | nil => exact .nil
  | cons c cs ih =>
    have hpair := ih (fun d hd ↦ hle d (List.mem_cons_of_mem _ hd)) h.tail
    refine List.pairwise_cons.2 ⟨?_, hpair⟩
    cases cs with
    | nil => simp
    | cons d ds =>
      intro e he
      have hcd : hi c.label ≤ lo d.label := (List.isChain_cons_cons.1 h).1
      have hd := hle d (by simp)
      rcases List.mem_cons.1 he with rfl | he
      · exact hcd
      · have hde := (List.pairwise_cons.1 hpair).1 e he
        omega

theorem OrderedBy.children {c : Concrete} (h : c.OrderedBy lo hi) : InOrder lo hi c.children := by
  refine ⟨pairwise_of_isChain (fun d hd ↦ (h.child hd).lo_le_hi) (h c c.self_mem_nodes).2.2, ?_⟩
  exact fun d hd ↦ h.child hd

theorem InOrder.sublist {cs ds : List Concrete} (h : InOrder lo hi cs) (hs : ds.Sublist cs) :
    InOrder lo hi ds :=
  ⟨h.1.sublist hs, fun c hc ↦ h.2 c (hs.subset hc)⟩

theorem InOrder.tail {c : Concrete} {cs : List Concrete} (h : InOrder lo hi (c :: cs)) :
    InOrder lo hi cs :=
  h.sublist (List.sublist_cons_self c cs)

theorem InOrder.hi_le {c : Concrete} {cs : List Concrete} (h : InOrder lo hi (c :: cs)) :
    ∀ d ∈ cs, hi c.label ≤ lo d.label :=
  (List.pairwise_cons.1 h.1).1

/-- The places at which siblings start do not fall. -/
theorem InOrder.pairwise_lo {cs : List Concrete} (h : InOrder lo hi cs) :
    cs.Pairwise fun a b ↦ lo a.label ≤ lo b.label := by
  refine h.1.imp_of_mem fun {a b} ha _ hab ↦ ?_
  exact Int.le_trans (h.2 a ha).lo_le_hi hab

/-- The children of a node are in order together with the siblings behind it. -/
theorem InOrder.adopt {c : Concrete} {rest : List Concrete} (h : InOrder lo hi (c :: rest)) :
    InOrder lo hi (c.children ++ rest) := by
  have hc := h.2 c List.mem_cons_self
  refine ⟨List.pairwise_append.2 ⟨hc.children.1, h.tail.1, fun a ha b hb ↦ ?_⟩, fun d hd ↦ ?_⟩
  · have hin := ((hc c c.self_mem_nodes).2.1 a ha).2
    have hbehind := h.hi_le b hb
    omega
  · rcases List.mem_append.1 hd with hd | hd
    · exact hc.child hd
    · exact h.tail.2 d hd

/-- What an interior node holds is in order, also what it adopts. -/
theorem InOrder.inside {c : Concrete} {rest : List Concrete} (g : Grammar)
    (h : InOrder lo hi (c :: rest)) : InOrder lo hi (Annotated.inside g c rest) := by
  unfold Annotated.inside
  split
  · exact h.adopt
  · exact (h.2 c List.mem_cons_self).children

/-- What an interior node leaves to its parent is in order. -/
theorem InOrder.behind {c : Concrete} {rest : List Concrete} (g : Grammar)
    (h : InOrder lo hi (c :: rest)) : InOrder lo hi (Annotated.behind g c rest) := by
  refine h.sublist ?_
  unfold Annotated.behind
  split
  · exact List.nil_sublist _
  · exact List.sublist_cons_self c rest

/-! ### A small file -/

instance (lo hi : Label → Int) (c : Concrete) : Decidable (c.OrderedBy lo hi) :=
  inferInstanceAs (Decidable (∀ n ∈ c.nodes, _))

instance (c : Concrete) : Decidable c.RowsInOrder :=
  inferInstanceAs (Decidable (c.OrderedBy _ _))

/-- A node that starts and ends on one row. -/
def onRow (type : String) (row : Int) (column startByte width : Nat) (nameChild : Option Nat)
    (children : List Concrete) : Concrete :=
  ⟨⟨type, startByte, startByte + width, ⟨row, column⟩, ⟨row, column + width⟩, false, nameChild⟩,
    children⟩

/-- The text of a small file: a namespace with two lines of documentation for a class, and a comment
behind the class. -/
def sampleText : String := "namespace N;\n/// TODO\n/// a\nclass C \x7b \x7d // b\n"

/-- The concrete tree of the small file. The namespace adopts what is behind it. -/
def sample : Concrete :=
  ⟨⟨"compilation_unit", 0, 45, ⟨0, 0⟩, ⟨4, 0⟩, false, none⟩,
    [onRow "file_scoped_namespace_declaration" 0 0 0 12 (some 1)
      [onRow "namespace" 0 0 0 9 none [], onRow "identifier" 0 10 10 1 none [],
        onRow ";" 0 11 11 1 none []],
    onRow "comment" 1 0 13 8 none [],
    onRow "comment" 2 0 22 5 none [],
    onRow "class_declaration" 3 0 28 11 (some 1)
      [onRow "class" 3 0 28 5 none [], onRow "identifier" 3 6 34 1 none [],
        onRow "declaration_list" 3 8 36 3 none
          [onRow "\x7b" 3 8 36 1 none [], onRow "\x7d" 3 10 38 1 none []]],
    onRow "comment" 3 12 40 4 none []]⟩

/-- The small file can be read as C#. -/
theorem sample_isOk : (Grammar.csharp.tree? sampleText.toUTF8 sample).isOk = true := by
  decide +kernel

end Concrete

end CommentScope
