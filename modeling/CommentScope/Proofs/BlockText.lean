import CommentScope.Proofs.BlockOrder
import CommentScope.Proofs.JoinedLines
import CommentScope.Proofs.Placement

/-!
# The text of a comment block

In a tree of a source, the nodes of a comment block follow each other, so the text of the block is
that of its nodes with what stands between them (`Block.text_cons`). If that is a line end and
blanks, the text of the block is wanted if and only if the text of one of its nodes is
(`Block.accepts_text`).
-/

namespace CommentScope

/-- The text of a node. -/
def Concrete.text (source : ByteArray) (c : Concrete) : String :=
  Utf8.slice source c.label.startByte c.label.endByte

/-! ### Blocks of a tree -/

namespace Arranged

open Concrete

variable {g : Grammar} {source : ByteArray} {lo hi : Label → Int}

/-- **The nodes of a block follow each other** if siblings do: a block takes up neighbours. -/
theorem isChain_of_mem_landmarksAll {cs : List Concrete} (h : InOrder lo hi cs) {b : Block}
    (hb : .comment b ∈ landmarksAll (ofSiblings g source cs)) :
    b.nodes.IsChain fun x y ↦ hi x.label ≤ lo y.label := by
  have hmem := List.mem_filterMap.2 ⟨_, hb, (rfl : Landmark.block? (.comment b) = some b)⟩
  exact ((pairwise_blocks_ofSiblings g source h).1 b hmem).isChain

end Arranged

/-! ### Blocks of a source -/

namespace Block

/-- Whether the nodes of a block are nodes of a source that follow each other. -/
structure Placed (source : String) (b : Block) : Prop where
  start : ∀ n ∈ b.nodes, IsAt source n.label.startByte n.label.start
  stop : ∀ n ∈ b.nodes, IsAt source n.label.endByte n.label.stop
  le : ∀ n ∈ b.nodes, n.label.startByte ≤ n.label.endByte
  chain : b.nodes.IsChain fun x y ↦ x.label.endByte ≤ y.label.startByte

/-- Whether there is only a line end and blanks between the nodes of a block. -/
def HasLineGaps (source : ByteArray) (b : Block) : Prop :=
  b.nodes.IsChain fun x y ↦
    Text.isLineGap (Utf8.slice source x.label.endByte y.label.startByte).toList = true

instance (source : ByteArray) (b : Block) : Decidable (b.HasLineGaps source) :=
  inferInstanceAs (Decidable (b.nodes.IsChain _))

variable {source : String}

/-- The blocks of a tree of a source are blocks of the source. -/
theorem placed_of_mem_landmarks {g : Grammar} {c : Concrete} (h : c.Placed source) {b : Block}
    (hb : .comment b ∈ c.landmarks g source.toUTF8) : b.Placed source := by
  have hnodes : ∀ n ∈ b.nodes, n ∈ c.nodes := fun n hn ↦ Concrete.mem_nodes_of_mem_landmarks hb hn
  refine ⟨fun n hn ↦ h.start n (hnodes n hn), fun n hn ↦ h.stop n (hnodes n hn),
    fun n hn ↦ Int.ofNat_le.1 (h.ordered n (hnodes n hn)).1, ?_⟩
  have hchain := Arranged.isChain_of_mem_landmarksAll h.ordered.children
    (Concrete.comment_mem_landmarks_iff.1 hb)
  exact hchain.imp fun x y hxy ↦ Int.ofNat_le.1 hxy

section

variable {n m : Concrete} {rest : List Concrete}

theorem last_cons (n m : Concrete) (rest : List Concrete) :
    (⟨n, m :: rest⟩ : Block).last = (⟨m, rest⟩ : Block).last :=
  List.getLast_cons _

theorem Placed.tail (h : (⟨n, m :: rest⟩ : Block).Placed source) :
    (⟨m, rest⟩ : Block).Placed source where
  start d hd := h.start d (List.mem_cons_of_mem n hd)
  stop d hd := h.stop d (List.mem_cons_of_mem n hd)
  le d hd := h.le d (List.mem_cons_of_mem n hd)
  chain := h.chain.tail

end

theorem Placed.first_le_last {b : Block} (h : b.Placed source) :
    b.first.label.startByte ≤ b.last.label.endByte := by
  obtain ⟨n, more⟩ := b
  induction more generalizing n with
  | nil => exact h.le n List.mem_cons_self
  | cons m rest ih =>
    have hself := h.le n List.mem_cons_self
    have hnext := (List.isChain_cons_cons.1 h.chain).1
    have htail := ih m h.tail
    rw [last_cons]
    show n.label.startByte ≤ _
    exact Nat.le_trans hself (Nat.le_trans hnext htail)

/-- **The text of a block** is that of its first node, what stands behind it, and the text of the
block that the other nodes make. -/
theorem Placed.text_cons {n m : Concrete} {rest : List Concrete}
    (h : (⟨n, m :: rest⟩ : Block).Placed source) :
    (⟨n, m :: rest⟩ : Block).text source.toUTF8 =
      String.ofList ((n.text source.toUTF8).toList ++
        ((Utf8.slice source.toUTF8 n.label.endByte m.label.startByte).toList ++
          ((⟨m, rest⟩ : Block).text source.toUTF8).toList)) := by
  have hself := h.le n List.mem_cons_self
  have hnext : n.label.endByte ≤ m.label.startByte := (List.isChain_cons_cons.1 h.chain).1
  have htail : m.label.startByte ≤ (⟨m, rest⟩ : Block).last.label.endByte := h.tail.first_le_last
  have hstart := h.start n List.mem_cons_self
  have hstop := h.stop n List.mem_cons_self
  have hstart' := h.start m (List.mem_cons_of_mem n List.mem_cons_self)
  have hlast := h.tail.stop (⟨m, rest⟩ : Block).last (List.getLast_mem _)
  show Utf8.slice source.toUTF8 n.label.startByte (⟨n, m :: rest⟩ : Block).last.label.endByte = _
  rw [last_cons, hstart.slice_append hstop hlast hself (Nat.le_trans hnext htail),
    hstop.slice_append hstart' hlast hnext htail, String.toList_ofList]
  rfl

/-- **The text of a block is wanted if and only if that of one of its nodes is.** -/
theorem accepts_text {b : Block} (h : b.Placed source) (hgaps : b.HasLineGaps source.toUTF8) :
    Markers.standard.accepts (b.text source.toUTF8) =
      b.nodes.any fun n ↦ Markers.standard.accepts (n.text source.toUTF8) := by
  obtain ⟨n, more⟩ := b
  induction more generalizing n with
  | nil =>
    show Markers.standard.accepts (n.text source.toUTF8) = (_ || false)
    rw [Bool.or_false]
  | cons m rest ih =>
    obtain ⟨hgap, hgaps⟩ := List.isChain_cons_cons.1 hgaps
    have htail := ih m h.tail hgaps
    rw [nodes, List.any_cons, Bool.eq_iff_iff, Bool.or_eq_true, h.text_cons,
      Markers.accepts_joined hgap, String.ofList_toList, String.ofList_toList, htail]
    rfl

end Block

end CommentScope
