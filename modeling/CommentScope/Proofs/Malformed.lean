import CommentScope.Proofs.BlockText
import CommentScope.Proofs.CommentParts
import CommentScope.Proofs.Octets
import CommentScope.Proofs.Readable

/-!
# Malformed sources are read

Of a source with errors a parser gives a tree all the same, with nodes that are missing, empty or
out of place. It can be read whatever its shape is, if no node ends before it starts and the points
of comments are those of their octets (`Grammar.malformed_is_read`). Nodes need not lie within their
parents nor follow each other, the offsets of code need not fit its points, and the source need not
be text.

What could be refused are spans: that of a node, that of a block, and that of the text between the
delimiters of a documentation comment. The last is found by counting characters from both ends of
the comment. A block of several nodes has several rows, since each starts on the row after the node
before it; a comment on one row is as wide as its octets, and has no more characters than these.
-/

namespace CommentScope

open Outcome

/-! ### Comments of a source -/

/-- Whether the points of a node are those of its offsets in a source. -/
def Concrete.Label.AgreesWith (source : ByteArray) (l : Label) : Prop :=
  l.start = Utf8.pointAt source l.startByte ∧ l.stop = Utf8.pointAt source l.endByte

instance (source : ByteArray) (l : Concrete.Label) : Decidable (l.AgreesWith source) :=
  inferInstanceAs (Decidable (_ ∧ _))

/-- The text of a node that agrees with a source fits between its columns if it stays on its row. -/
theorem Concrete.Label.AgreesWith.column_add_length_le {source : ByteArray} {l : Label}
    (h : l.AgreesWith source) (hrow : l.start.row = l.stop.row)
    (hcolumn : l.start.column ≤ l.stop.column) :
    l.start.column + ((Utf8.slice source l.startByte l.endByte).toList.length : Int) ≤
      l.stop.column := by
  obtain ⟨hstart, hstop⟩ := h
  rw [hstart, hstop] at hrow hcolumn ⊢
  exact Utf8.column_add_length_slice_le hrow hcolumn

/-! ### Blocks -/

namespace Block

/-- **The ends of a block delimit a span**, and a block of several nodes has several rows. -/
theorem delimits {b : Block} (hforward : ∀ n ∈ b.nodes, n.label.start.Delimits n.label.stop)
    (hrows : b.nodes.IsChain fun x y ↦ y.label.start.row = x.label.stop.row + 1) :
    b.first.label.start.Delimits b.last.label.stop ∧
      (b.more = [] ∨ b.first.label.start.row < b.last.label.stop.row) := by
  obtain ⟨n, more⟩ := b
  induction more generalizing n with
  | nil => exact ⟨hforward n List.mem_cons_self, .inl rfl⟩
  | cons m rest ih =>
    obtain ⟨hn, hmore⟩ := List.forall_mem_cons.1 hforward
    obtain ⟨hnext, hrows⟩ := List.isChain_cons_cons.1 hrows
    obtain ⟨hlast, -⟩ := ih m hmore hrows
    have hlt : n.label.start.row < (⟨n, m :: rest⟩ : Block).last.label.stop.row :=
      calc n.label.start.row ≤ n.label.stop.row := hn.row_le
        _ < m.label.start.row := by rw [hnext]; exact Int.lt_succ _
        _ ≤ (⟨m, rest⟩ : Block).last.label.stop.row := hlast.row_le
        _ = (⟨n, m :: rest⟩ : Block).last.label.stop.row := by rw [last_cons]
    exact ⟨⟨hn.1, .inl hlt⟩, .inr hlt⟩

/-- **A block can be read** if its nodes stand on consecutive rows, with points that are those of
their octets. -/
theorem exists_remark {g : Grammar} {language : Language} {source : ByteArray} {b : Block}
    (hg : g.classify = Comment.classify language)
    (hforward : ∀ n ∈ b.nodes, n.label.start.Delimits n.label.stop)
    (hrows : b.nodes.IsChain fun x y ↦ y.label.start.row = x.label.stop.row + 1)
    (hagrees : ∀ n ∈ b.nodes, n.label.AgreesWith source) : ∃ r, b.remark? g source = .ok r := by
  obtain ⟨hdelimits, hwidth⟩ := delimits hforward hrows
  obtain ⟨span, hspan⟩ := Span.exists_between?_iff.2 hdelimits
  obtain ⟨hstart, hstop⟩ := Span.between?_eq_ok hspan
  have hclassify : ∃ t, g.classify (b.text source) span = .ok t := by
    rw [hg]
    refine Comment.exists_classify language fun hline ↦ ?_
    have hrow : b.first.label.start.row = b.last.label.stop.row := by
      rw [← hstart, ← hstop]
      exact congrArg Int.ofNat hline
    show span.start.column + _ ≤ span.stop.column
    rw [hstart, hstop]
    rcases hwidth with hone | hlt
    · obtain ⟨n, more⟩ := b
      cases hone
      have hcolumn := hdelimits.2.resolve_left (Int.not_lt.2 (Int.le_of_eq hrow.symm))
      exact (hagrees n List.mem_cons_self).column_add_length_le hrow hcolumn.2
    · exact absurd hrow (Int.ne_of_lt hlt)
  obtain ⟨t, ht⟩ := hclassify
  exact exists_bind_eq_ok hspan (exists_bind_eq_ok ht ⟨_, rfl⟩)

end Block

/-! ### Trees -/

namespace Grammar

/-- A tree can be read if no node ends before it starts and comments agree with the source, where
comments are classified as in one of the languages. -/
theorem exists_tree?_of_agrees {g : Grammar} {language : Language} {source : ByteArray}
    {c : Concrete} (hg : g.classify = Comment.classify language)
    (hforward : ∀ n ∈ c.nodes, n.label.start.Delimits n.label.stop)
    (hagrees : ∀ n ∈ c.nodes, g.isComment n = true → n.label.AgreesWith source) :
    ∃ t, g.tree? source c = .ok t := by
  refine exists_tree? fun l hl ↦ ?_
  have hnodes : ∀ n ∈ l.nodes, n ∈ c.nodes :=
    fun n hn ↦ Concrete.mem_nodes_of_mem_landmarks hl hn
  have hspan : ∀ n ∈ l.nodes, ∃ span, Span.between? n.label.start n.label.stop = .ok span :=
    fun n hn ↦ Span.exists_between?_iff.2 (hforward n (hnodes n hn))
  cases l with
  | root n => exact Landmark.isReadable_root_iff.2 (hspan n List.mem_cons_self)
  | inner n => exact Landmark.isReadable_inner_iff.2 (hspan n List.mem_cons_self)
  | leaf n => exact Landmark.isReadable_leaf_iff.2 (hspan n List.mem_cons_self)
  | comment b =>
    have hb := Concrete.comment_mem_landmarks_iff.1 hl
    refine Landmark.isReadable_comment_iff.2 (Block.exists_remark hg ?_ ?_ ?_)
    · exact fun n hn ↦ hforward n (hnodes n hn)
    · exact Arranged.rows_of_mem_landmarksAll hb
    · exact fun n hn ↦ hagrees n (hnodes n hn) (Arranged.isComment_of_mem_landmarksAll _ hb n hn)

/-- **Malformed sources are read.** Every tree of a C#, Java or Python source can be read in which
no node ends before it starts and the points of each comment are those of its octets, whatever else
is wrong with it: no span, no step that adds a node, and no check of the finished tree refuses
anything. -/
theorem malformed_is_read (language : Language) (source : ByteArray) (c : Concrete)
    (hforward : ∀ n ∈ c.nodes, n.label.start.Delimits n.label.stop)
    (hagrees : ∀ n ∈ c.nodes, (ofLanguage language).isComment n = true →
      n.label.AgreesWith source) :
    ∃ t, (ofLanguage language).tree? source c = .ok t := by
  have hclassify := classify_ofLanguage language
  exact exists_tree?_of_agrees hclassify hforward hagrees

/-! ### A garbled file -/

/-- The text of a garbled file. Its first comment has a character of two octets. -/
def garbledText : String := "/** \u00e9 */ x\n/***/"

/-- A tree of the garbled file, with the shortest documentation comment before everything else, an
error that ends before its children start, a node that adopts in one that adopts, a missing token,
and an empty one with offsets beyond the end of the file. -/
def garbled : Concrete :=
  ⟨⟨"compilation_unit", 0, 17, ⟨0, 0⟩, ⟨1, 5⟩, false, none⟩,
    [Concrete.onRow "comment" 1 0 12 5 none [],
    ⟨⟨"ERROR", 9, 2, ⟨0, 3⟩, ⟨0, 3⟩, false, none⟩,
      [Concrete.onRow "file_scoped_namespace_declaration" 7 0 0 1 (some 4)
        [⟨⟨";", 11, 11, ⟨0, 11⟩, ⟨0, 11⟩, true, none⟩, []⟩,
        Concrete.onRow "file_scoped_namespace_declaration" 0 10 10 1 none
          [Concrete.onRow "comment" 0 0 0 9 none []]],
      Concrete.onRow "comment" 1 0 12 5 none []]⟩,
    Concrete.onRow "comment" 0 0 0 9 none [],
    Concrete.onRow "identifier" 30 2 90 0 none []]⟩

/-- The garbled file is read. -/
theorem malformed_is_read_garbled :
    (∀ n ∈ garbled.nodes, n.label.start.Delimits n.label.stop) ∧
    (∀ n ∈ garbled.nodes, csharp.isComment n = true → n.label.AgreesWith garbledText.toUTF8) ∧
    ∃ t, csharp.tree? garbledText.toUTF8 garbled = .ok t := by
  have hforward : ∀ n ∈ garbled.nodes, n.label.start.Delimits n.label.stop := by decide
  have hagrees : ∀ n ∈ garbled.nodes, csharp.isComment n = true →
      n.label.AgreesWith garbledText.toUTF8 := by
    decide +kernel
  exact ⟨hforward, hagrees, malformed_is_read .csharp _ garbled hforward hagrees⟩

end Grammar

end CommentScope
