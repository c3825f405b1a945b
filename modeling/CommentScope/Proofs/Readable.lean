import CommentScope.Proofs.SourceOrder

/-!
# When a concrete tree can be read

Reading a concrete tree is refused only for what its landmarks say: a tree can be read if every node
delimits a span and every comment block has trivia (`Grammar.exists_tree?`).
-/

namespace CommentScope

open Outcome

/-- Whether what a landmark says can be read. -/
def Landmark.IsReadable (g : Grammar) (source : ByteArray) (l : Landmark) : Prop :=
  ∃ p, l.passage? g source = .ok p

variable {g : Grammar} {source : ByteArray}

theorem Landmark.isReadable_comment_iff {b : Block} :
    (Landmark.comment b).IsReadable g source ↔ ∃ r, b.remark? g source = .ok r :=
  exists_map_eq_ok_iff

section

variable {c : Concrete}

theorem Landmark.isReadable_leaf_iff : (Landmark.leaf c).IsReadable g source ↔
    ∃ span, Span.between? c.label.start c.label.stop = .ok span :=
  exists_map_eq_ok_iff.trans exists_map_eq_ok_iff

theorem Landmark.isReadable_inner_iff : (Landmark.inner c).IsReadable g source ↔
    ∃ span, Span.between? c.label.start c.label.stop = .ok span :=
  exists_map_eq_ok_iff.trans exists_map_eq_ok_iff

theorem Landmark.isReadable_root_iff : (Landmark.root c).IsReadable g source ↔
    ∃ span, Span.between? c.label.start c.label.stop = .ok span :=
  exists_map_eq_ok_iff.trans exists_map_eq_ok_iff

end

namespace Annotated

/-- The comments of a gap can be shared out if they can be read. -/
theorem exists_shareOut (after : Option Int) {blocks : List Block}
    (h : ∀ b ∈ blocks, (Landmark.comment b).IsReadable g source) :
    ∃ shares, shareOut g source after blocks = .ok shares := by
  obtain ⟨rs, hrs⟩ := exists_mapM_eq_ok fun b hb ↦ Landmark.isReadable_comment_iff.1 (h b hb)
  exact ⟨_, map_eq_ok_iff.2 ⟨rs, hrs, rfl⟩⟩

/-- **Siblings can be read** if everything met among them and below them can. -/
theorem exists_siblings {root : Option Span} {after : Option Int} {cs : List Concrete}
    (h : ∀ l ∈ Arranged.landmarksAll (Arranged.ofSiblings g source cs), l.IsReadable g source) :
    ∃ r, siblings g source root after cs = .ok r := by
  fun_induction siblings g source root after cs with
  | case1 root after cs blocks gap =>
    rw [Arranged.ofSiblings_of_leading_nil gap, Arranged.landmarksAll_comments] at h
    obtain ⟨shares, hshares⟩ := exists_shareOut after fun b hb ↦ h _ (List.mem_map_of_mem hb)
    cases root with
    | none => exact exists_bind_eq_ok hshares ⟨_, rfl⟩
    | some s => exact exists_bind_eq_ok hshares ⟨_, rfl⟩
  | case2 root after cs blocks c rest gap _ _ _ ihl ihb ihm =>
    by_cases hl : c.isLeaf = true
    · rw [Arranged.ofSiblings_of_leading_leaf gap hl, Arranged.landmarksAll_append,
        Arranged.landmarksAll_comments] at h
      obtain ⟨shares, hshares⟩ := exists_shareOut after fun b hb ↦
        h _ (List.mem_append_left _ (List.mem_map_of_mem hb))
      obtain ⟨span, hspan⟩ := Landmark.isReadable_leaf_iff.1
        (h (.leaf c) (List.mem_append_right _ List.mem_cons_self))
      obtain ⟨more, hmore⟩ := ihl fun l hl ↦
        h l (List.mem_append_right _ (List.mem_cons_of_mem _ hl))
      refine exists_bind_eq_ok hshares (exists_bind_eq_ok hspan ?_)
      rw [if_pos hl]
      exact exists_bind_eq_ok hmore ⟨_, rfl⟩
    · have hl' : c.isLeaf = false := Bool.eq_false_iff.2 hl
      rw [Arranged.ofSiblings_of_leading_inner gap hl', Arranged.landmarksAll_append,
        Arranged.landmarksAll_comments] at h
      obtain ⟨shares, hshares⟩ := exists_shareOut after fun b hb ↦
        h _ (List.mem_append_left _ (List.mem_map_of_mem hb))
      obtain ⟨span, hspan⟩ := Landmark.isReadable_inner_iff.1
        (h (.inner c) (List.mem_append_right _ (List.mem_append_left _ List.mem_cons_self)))
      obtain ⟨below, hbelow⟩ := ihb fun l hl ↦
        h l (List.mem_append_right _ (List.mem_append_left _ (List.mem_cons_of_mem _ hl)))
      obtain ⟨more, hmore⟩ := ihm fun l hl ↦
        h l (List.mem_append_right _ (List.mem_append_right _ hl))
      refine exists_bind_eq_ok hshares (exists_bind_eq_ok hspan ?_)
      rw [if_neg hl]
      exact exists_bind_eq_ok hbelow (exists_bind_eq_ok hmore ⟨_, rfl⟩)

end Annotated

/-- **A concrete tree can be read** if each of its landmarks can. -/
theorem Grammar.exists_tree? {c : Concrete}
    (h : ∀ l ∈ c.landmarks g source, l.IsReadable g source) :
    ∃ t, g.tree? source c = .ok t := by
  obtain ⟨span, hspan⟩ := Landmark.isReadable_root_iff.1 (h _ List.mem_cons_self)
  have hbelow : ∃ r, Annotated.siblings g source (some span) none c.children = .ok r :=
    Annotated.exists_siblings fun l hl ↦ h l (List.mem_cons_of_mem _ hl)
  obtain ⟨r, hr⟩ := hbelow
  exact ⟨_, (tree?_eq_ok_iff g source).2 ⟨span, _, hspan, map_eq_ok_iff.2 ⟨r, hr, rfl⟩, rfl⟩⟩

end CommentScope
