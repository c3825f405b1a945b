import CommentScope.Proofs.Around

/-!
# Comment blocks follow each other

The nodes of the comment blocks of a concrete tree are the comments that are met in it, in the same
order (`Arranged.nodes_blocks_ofSiblings`): joining comments to blocks and moving adopted siblings
down changes no order. In a tree in order, comments follow each other, since what is below a node
lies within it (`Concrete.OrderedBy.within`). So do, therefore, the nodes of a block, and whole
blocks (`Concrete.pairwise_blocks`).

What is said of blocks whatever the order is follows from the two ways in which they come about
(`Arranged.landmark_induction`).
-/

namespace CommentScope

namespace Concrete

variable {lo hi : Label → Int}

/-! ### Comments that are met -/

mutual

/-- **What is below a node lies within it.** -/
theorem OrderedBy.within {n : Concrete} :
    ∀ c : Concrete, c.OrderedBy lo hi → n ∈ c.nodes →
      lo c.label ≤ lo n.label ∧ hi n.label ≤ hi c.label
  | ⟨l, cs⟩, hc, hn => by
    rw [nodes] at hn
    rcases List.mem_cons.1 hn with rfl | hn
    · exact ⟨Int.le_refl _, Int.le_refl _⟩
    · obtain ⟨d, hd, hlo, hhi⟩ := exists_within cs (fun d hd ↦ hc.child hd) hn
      obtain ⟨hin, hout⟩ := (hc _ (self_mem_nodes _)).2.1 d hd
      exact ⟨Int.le_trans hin hlo, Int.le_trans hhi hout⟩

/-- What is below one of several nodes lies within one of them. -/
theorem exists_within {n : Concrete} :
    ∀ cs : List Concrete, (∀ c ∈ cs, c.OrderedBy lo hi) → n ∈ nodesAll cs →
      ∃ d ∈ cs, lo d.label ≤ lo n.label ∧ hi n.label ≤ hi d.label
  | [], _, hn => absurd hn List.not_mem_nil
  | c :: cs, hcs, hn => by
    rw [nodesAll, List.mem_append] at hn
    rcases hn with hn | hn
    · exact ⟨c, List.mem_cons_self, OrderedBy.within c (hcs c List.mem_cons_self) hn⟩
    · obtain ⟨d, hd, hwithin⟩ := exists_within cs (fun c hc ↦ hcs c (List.mem_cons_of_mem _ hc)) hn
      exact ⟨d, List.mem_cons_of_mem _ hd, hwithin⟩

end

mutual

/-- **Comments follow each other**, as far as they stand in one tree in order. -/
theorem OrderedBy.pairwise_met (g : Grammar) : ∀ c : Concrete, c.OrderedBy lo hi →
    ((c.met g).filter g.isComment).Pairwise fun x y ↦ hi x.label ≤ lo y.label
  | ⟨l, cs⟩, hc => by
    rw [met]
    split
    · exact (List.pairwise_singleton _ _).filter _
    · rename_i hcode
      rw [List.filter_cons_of_neg hcode]
      exact InOrder.pairwise_metAll g cs hc.children

/-- Comments follow each other, as far as they stand in siblings in order. -/
theorem InOrder.pairwise_metAll (g : Grammar) : ∀ cs : List Concrete, InOrder lo hi cs →
    ((metAll g cs).filter g.isComment).Pairwise fun x y ↦ hi x.label ≤ lo y.label
  | [], _ => .nil
  | c :: cs, hcs => by
    have hc := hcs.2 c List.mem_cons_self
    rw [metAll, List.filter_append, List.pairwise_append]
    refine ⟨OrderedBy.pairwise_met g c hc, InOrder.pairwise_metAll g cs hcs.tail, ?_⟩
    intro x hx y hy
    have hx' := met_subset g c (List.mem_of_mem_filter hx)
    have hy' := metAll_subset g cs (List.mem_of_mem_filter hy)
    obtain ⟨d, hd, hlo, -⟩ := exists_within cs hcs.tail.2 hy'
    calc hi x.label ≤ hi c.label := (OrderedBy.within c hc hx').2
      _ ≤ lo d.label := hcs.hi_le d hd
      _ ≤ lo y.label := hlo

end

end Concrete

/-! ### Comments of blocks -/

namespace Arranged

open Concrete

variable {g : Grammar} {source : ByteArray}

/-- **What holds of every landmark of siblings**: it is shown for nodes that are no comments, for a
comment that stands alone, and for a comment that is joined to a block behind it. -/
theorem landmark_induction {P : Landmark → Prop}
    (leaf : ∀ c, g.isComment c = false → P (.leaf c))
    (inner : ∀ c, g.isComment c = false → P (.inner c))
    (alone : ∀ c, g.isComment c = true → P (.comment ⟨c, []⟩))
    (joined : ∀ c b, g.isComment c = true → joins g source c b.first = true → P (.comment b) →
      P (.comment ⟨c, b.nodes⟩)) :
    ∀ {cs : List Concrete}, ∀ l ∈ landmarksAll (ofSiblings g source cs), P l := by
  have hprepend : ∀ (c : Concrete) (xs : List Arranged), g.isComment c = true →
      (∀ l ∈ landmarksAll xs, P l) → ∀ l ∈ landmarksAll (prepend g source c xs), P l := by
    intro c xs hc hxs
    unfold prepend
    split
    · rename_i b rest
      obtain ⟨hb, hrest⟩ := List.forall_mem_cons.1 hxs
      split
      · exact List.forall_mem_cons.2 ⟨joined c b hc ‹_› hb, hrest⟩
      · exact List.forall_mem_cons.2 ⟨alone c hc, hxs⟩
    · exact List.forall_mem_cons.2 ⟨alone c hc, hxs⟩
  intro cs
  fun_induction ofSiblings g source cs with
  | case1 =>
    intro l hl
    cases hl
  | case2 c rest hc ih => exact hprepend c _ hc ih
  | case3 c rest hc _ ih =>
    exact List.forall_mem_cons.2 ⟨leaf c (Bool.eq_false_iff.2 hc), ih⟩
  | case4 c rest hc _ _ ih =>
    rw [landmarksAll, landmarks, landmarksAll, List.append_nil]
    exact List.forall_mem_cons.2 ⟨inner c (Bool.eq_false_iff.2 hc), ih⟩
  | case5 c rest hc _ _ ihc ih =>
    rw [landmarksAll, landmarks, List.cons_append]
    refine List.forall_mem_cons.2 ⟨inner c (Bool.eq_false_iff.2 hc), fun l hl ↦ ?_⟩
    exact (List.mem_append.1 hl).elim (ihc l) (ih l)

/-- **Blocks are made of comments**, and nothing else is. -/
theorem isComment_of_mem_landmarksAll {cs : List Concrete} :
    ∀ l ∈ landmarksAll (ofSiblings g source cs), ∀ n ∈ l.nodes,
      g.isComment n = l.block?.isSome := by
  refine landmark_induction ?_ ?_ ?_ ?_
  · exact fun c hc ↦ List.forall_mem_singleton.2 hc
  · exact fun c hc ↦ List.forall_mem_singleton.2 hc
  · exact fun c hc ↦ List.forall_mem_singleton.2 hc
  · exact fun c b hc _ hb ↦ List.forall_mem_cons.2 ⟨hc, hb⟩

/-- **The nodes of a block stand on consecutive rows**: each starts on the row after the one on
which the node before it ends. -/
theorem rows_of_mem_landmarksAll {cs : List Concrete} {b : Block}
    (hb : .comment b ∈ landmarksAll (ofSiblings g source cs)) :
    b.nodes.IsChain fun x y ↦ y.label.start.row = x.label.stop.row + 1 := by
  have hrows : ∀ l ∈ landmarksAll (ofSiblings g source cs), ∀ b, l = .comment b →
      b.nodes.IsChain fun x y ↦ y.label.start.row = x.label.stop.row + 1 := by
    refine landmark_induction (fun c _ b h ↦ by cases h) (fun c _ b h ↦ by cases h) ?_ ?_
    · rintro c - b ⟨⟩
      exact .singleton c
    · rintro c b - hjoins hb b' ⟨⟩
      rw [joins, Bool.and_eq_true, beq_iff_eq] at hjoins
      exact List.isChain_cons_cons.2 ⟨hjoins.2, hb b rfl⟩
  exact hrows _ hb b rfl

/-- The nodes of blocks are the comments among the nodes of landmarks. -/
theorem nodes_filterMap_block? {ls : List Landmark}
    (h : ∀ l ∈ ls, ∀ n ∈ l.nodes, g.isComment n = l.block?.isSome) :
    (ls.filterMap Landmark.block?).flatMap Block.nodes =
      (ls.flatMap Landmark.nodes).filter g.isComment := by
  induction ls with
  | nil => rfl
  | cons l ls ih =>
    obtain ⟨hl, hls⟩ := List.forall_mem_cons.1 h
    rw [List.flatMap_cons, List.filter_append, ← ih hls]
    cases hb : l.block? with
    | none =>
      rw [List.filterMap_cons_none hb, List.filter_eq_nil_iff.2 fun n hn ↦ by simp [hl n hn, hb]]
      rfl
    | some b =>
      have hnodes : l.nodes = b.nodes := by
        cases l <;> cases hb
        rfl
      rw [List.filterMap_cons_some hb, List.flatMap_cons,
        List.filter_eq_self.2 fun n hn ↦ by simp [hl n hn, hb], hnodes]

variable (g source) in
/-- **The nodes of the blocks of siblings** are the comments that are met in them, in order. -/
theorem nodes_blocks_ofSiblings (cs : List Concrete) :
    ((landmarksAll (ofSiblings g source cs)).filterMap Landmark.block?).flatMap Block.nodes =
      (metAll g cs).filter g.isComment := by
  rw [nodes_filterMap_block? isComment_of_mem_landmarksAll, nodes_ofSiblings]

variable (g source) in
/-- Blocks of siblings in order follow each other, and so do the nodes of each of them. -/
theorem pairwise_blocks_ofSiblings {lo hi : Label → Int} {cs : List Concrete}
    (h : InOrder lo hi cs) :
    (∀ b ∈ (landmarksAll (ofSiblings g source cs)).filterMap Landmark.block?,
      b.nodes.Pairwise fun x y ↦ hi x.label ≤ lo y.label) ∧
    ((landmarksAll (ofSiblings g source cs)).filterMap Landmark.block?).Pairwise fun a b ↦
      ∀ x ∈ a.nodes, ∀ y ∈ b.nodes, hi x.label ≤ lo y.label := by
  have hpair := InOrder.pairwise_metAll g cs h
  rw [← nodes_blocks_ofSiblings g source] at hpair
  exact List.pairwise_flatMap.1 hpair

end Arranged

/-! ### Blocks of a tree -/

/-- **Blocks follow each other.** -/
theorem Concrete.pairwise_blocks (g : Grammar) (source : ByteArray) {c : Concrete}
    {lo hi : Label → Int} (h : c.OrderedBy lo hi) :
    (c.blocks g source).Pairwise fun a b ↦
      ∀ x ∈ a.it.nodes, ∀ y ∈ b.it.nodes, hi x.label ≤ lo y.label := by
  have hpair := (Arranged.pairwise_blocks_ofSiblings g source h.children).2
  rw [← Arranged.map_it_blocksAll _ [⟨0, g.role c.label.type⟩] 1] at hpair
  exact List.pairwise_map.1 hpair

end CommentScope
