import CommentScope.Proofs.Layout
import CommentScope.Proofs.Outcome
import CommentScope.Proofs.Reading
import Mathlib.Data.List.Forall2

/-!
# Trees that are read alike

When two concrete trees are read, one with a grammar and the other with the same grammar but other
adopting types, the outcome is the same if their siblings can be gone through in step
(`Concrete.Mirrors`): the same is reported of both, and what an interior node holds, and what it
leaves to its parent, can be gone through in step again. What is reported of names may differ; then
the trees that are read differ in their names only (`Grammar.nameless_tree?_of_mirrors`).

`Annotated.alike_siblings` is the only place where the steps of the reader are compared.
-/

namespace CommentScope

/-- A grammar with other adopting types. -/
def Grammar.withAdopting (g : Grammar) (types : List String) : Grammar :=
  { g with adopting := types }

namespace Concrete

/-! ### Siblings that are read in step -/

/-- Whether two nodes report the same, but perhaps for their name child. -/
def Label.IsLike (l m : Label) : Prop := ∃ k, m = { l with nameChild := k }

/-- Whether siblings of one grammar and siblings of the grammar with other adopting types are read
in step: they report the same, with names that are related, and what an interior node holds, and
what it leaves to its parent, is again read in step. -/
inductive Mirrors (g : Grammar) (types : List String) (source : ByteArray)
    (N : Option String → Option String → Prop) : List Concrete → List Concrete → Prop
  | nil : Mirrors g types source N [] []
  | comment {c c' : Concrete} {rest rest' : List Concrete} (like : c.label.IsLike c'.label)
      (isComment : g.isComment c = true) (more : Mirrors g types source N rest rest') :
      Mirrors g types source N (c :: rest) (c' :: rest')
  | leaf {c c' : Concrete} {rest rest' : List Concrete} (like : c.label.IsLike c'.label)
      (isCode : g.isComment c = false) (isLeaf : c.isLeaf = true) (isLeaf' : c'.isLeaf = true)
      (more : Mirrors g types source N rest rest') :
      Mirrors g types source N (c :: rest) (c' :: rest')
  | inner {c c' : Concrete} {rest rest' : List Concrete} (like : c.label.IsLike c'.label)
      (isCode : g.isComment c = false) (isInner : c.isLeaf = false) (isInner' : c'.isLeaf = false)
      (name : N (g.declaredName? source c) ((g.withAdopting types).declaredName? source c'))
      (inside : Mirrors g types source N (Annotated.inside g c rest)
        (Annotated.inside (g.withAdopting types) c' rest'))
      (behind : Mirrors g types source N (Annotated.behind g c rest)
        (Annotated.behind (g.withAdopting types) c' rest')) :
      Mirrors g types source N (c :: rest) (c' :: rest')

end Concrete

namespace Block

/-- Whether the nodes of two blocks report the same, but perhaps for their name children. -/
def IsLike (b b' : Block) : Prop :=
  List.Forall₂ (fun c c' : Concrete ↦ c.label.IsLike c'.label) b.nodes b'.nodes

variable {g : Grammar} {types : List String} {source : ByteArray}

theorem IsLike.last {b b' : Block} (h : b.IsLike b') : b.last.label.IsLike b'.last.label := by
  obtain ⟨n, more⟩ := b
  obtain ⟨n', more'⟩ := b'
  induction more generalizing n n' more' with
  | nil =>
    obtain ⟨hn, hmore⟩ := List.forall₂_cons.1 h
    cases hmore
    exact hn
  | cons m more ih =>
    obtain ⟨-, hmore⟩ := List.forall₂_cons.1 h
    cases hmore with
    | @cons _ m' _ more' hm hmore => exact ih m m' more' (.cons hm hmore)

/-- Like blocks have the same trivia. -/
theorem IsLike.remark? {b b' : Block} (h : b.IsLike b') :
    b'.remark? (g.withAdopting types) source = b.remark? g source := by
  obtain ⟨k, hfirst⟩ := (List.forall₂_cons.1 h).1
  obtain ⟨k', hlast⟩ := h.last
  rw [Block.remark?, Block.remark?, span?, span?, text, text, hfirst, hlast]
  rfl

/-- Like comments go on a run of lines in the same way. -/
theorem continues_of_isLike {last last' c c' : Concrete} (hlast : last.label.IsLike last'.label)
    (hc : c.label.IsLike c'.label) :
    continues (g.withAdopting types) source last' c' = continues g source last c := by
  obtain ⟨k, hlast⟩ := hlast
  obtain ⟨k', hc⟩ := hc
  rw [continues, continues, Grammar.isComment, Grammar.isComment, Grammar.isDocLine,
    Grammar.isDocLine, hlast, hc]
  rfl

end Block

namespace Concrete.Mirrors

open Block

variable {g : Grammar} {types : List String} {source : ByteArray}
  {N : Option String → Option String → Prop} {cs cs' : List Concrete} {c c' last last' : Concrete}

theorem isComment_eq (h : c.label.IsLike c'.label) :
    (g.withAdopting types).isComment c' = g.isComment c := by
  obtain ⟨k, h⟩ := h
  rw [Grammar.isComment, Grammar.isComment, h]
  rfl

/-- What is no comment ends a run of lines, on both sides. -/
theorem run_of_isCode {rest rest' : List Concrete} (hlast : last.label.IsLike last'.label)
    (hc : c.label.IsLike c'.label) (hcode : g.isComment c = false)
    (h : Mirrors g types source N (c :: rest) (c' :: rest')) :
    List.Forall₂ (fun c c' : Concrete ↦ c.label.IsLike c'.label)
        (Block.run g source last (c :: rest)).1
        (Block.run (g.withAdopting types) source last' (c' :: rest')).1 ∧
      Mirrors g types source N (Block.run g source last (c :: rest)).2
        (Block.run (g.withAdopting types) source last' (c' :: rest')).2 := by
  have hstop : continues g source last c = false := by rw [continues, hcode]; rfl
  rw [Block.run, Block.run, continues_of_isLike hlast hc, hstop]
  exact ⟨.nil, h⟩

theorem run (h : Mirrors g types source N cs cs') (hlast : last.label.IsLike last'.label) :
    List.Forall₂ (fun c c' : Concrete ↦ c.label.IsLike c'.label) (Block.run g source last cs).1
        (Block.run (g.withAdopting types) source last' cs').1 ∧
      Mirrors g types source N (Block.run g source last cs).2
        (Block.run (g.withAdopting types) source last' cs').2 := by
  induction h generalizing last last' with
  | nil => exact ⟨.nil, .nil⟩
  | comment like isComment more ih =>
    rw [Block.run, Block.run, continues_of_isLike hlast like]
    split
    · obtain ⟨hrun, hrest⟩ := ih like
      exact ⟨.cons like hrun, hrest⟩
    · exact ⟨.nil, .comment like isComment more⟩
  | leaf like isCode isLeaf isLeaf' more =>
    exact run_of_isCode hlast like isCode (.leaf like isCode isLeaf isLeaf' more)
  | inner like isCode isInner isInner' name inside behind =>
    exact run_of_isCode hlast like isCode (.inner like isCode isInner isInner' name inside behind)

theorem take (h : Mirrors g types source N cs cs') (hc : c.label.IsLike c'.label) :
    (Block.take g source c cs).1.IsLike (Block.take (g.withAdopting types) source c' cs').1 ∧
      Mirrors g types source N (Block.take g source c cs).2
        (Block.take (g.withAdopting types) source c' cs').2 := by
  have hdoc : (g.withAdopting types).isDocLine source c' = g.isDocLine source c := by
    obtain ⟨k, hk⟩ := hc
    rw [Grammar.isDocLine, Grammar.isDocLine, hk]
    rfl
  rw [Block.take, Block.take, hdoc]
  split
  · obtain ⟨hrun, hrest⟩ := h.run hc
    exact ⟨.cons hc hrun, hrest⟩
  · exact ⟨.cons hc .nil, h⟩

/-- **Siblings that are read in step have like blocks in front**, and what is behind these is read
in step. -/
theorem leading (h : Mirrors g types source N cs cs') :
    List.Forall₂ Block.IsLike (Block.leading g source cs).1
        (Block.leading (g.withAdopting types) source cs').1 ∧
      Mirrors g types source N (Block.leading g source cs).2
        (Block.leading (g.withAdopting types) source cs').2 := by
  fun_induction Block.leading g source cs generalizing cs' with
  | case1 =>
    cases h
    rw [Block.leading]
    exact ⟨.nil, .nil⟩
  | case2 c rest hc t l =>
    rename_i ih
    cases h with
    | comment like _ more =>
      obtain ⟨hblock, hrest⟩ := more.take like
      obtain ⟨hblocks, hbehind⟩ := ih hrest
      rw [Block.leading, if_pos ((isComment_eq like).trans hc)]
      exact ⟨.cons hblock hblocks, hbehind⟩
    | leaf _ isCode => rw [isCode] at hc; cases hc
    | inner _ isCode => rw [isCode] at hc; cases hc
  | case3 c rest hc =>
    have hstop : ∀ {c' : Concrete} {rest' : List Concrete}, c.label.IsLike c'.label →
        Block.leading (g.withAdopting types) source (c' :: rest') = ([], c' :: rest') := by
      intro c' rest' hlike
      rw [Block.leading, if_neg (by rwa [isComment_eq hlike])]
    cases h with
    | comment _ isComment => exact absurd isComment hc
    | leaf like isCode isLeaf isLeaf' more =>
      rw [hstop like]
      exact ⟨.nil, .leaf like isCode isLeaf isLeaf' more⟩
    | inner like isCode isInner isInner' name inside behind =>
      rw [hstop like]
      exact ⟨.nil, .inner like isCode isInner isInner' name inside behind⟩

end Concrete.Mirrors

namespace Annotated

/-- Whether pieces of syntax are the same, but for names that are related. -/
inductive Alike (N : Option String → Option String → Prop) :
    List Annotated → List Annotated → Prop
  | nil : Alike N [] []
  | token {as as' : List Annotated} (type text : String) (span : Span)
      (leading trailing : List Trivia) (more : Alike N as as') :
      Alike N (.token type text span leading trailing :: as)
        (.token type text span leading trailing :: as')
  | inserted {as as' : List Annotated} (filler : Filler) (line : Nat) (column : Int)
      (leading : List Trivia) (more : Alike N as as') :
      Alike N (.inserted filler line column leading :: as)
        (.inserted filler line column leading :: as')
  | branch {as as' below below' : List Annotated} {name name' : Option String} (type : String)
      (role : Role) (span : Span) (names : N name name') (inside : Alike N below below')
      (more : Alike N as as') :
      Alike N (.branch type role name span below :: as) (.branch type role name' span below' :: as')

variable {N : Option String → Option String → Prop} {as as' bs bs' : List Annotated}

theorem Alike.anchors_append (h : Alike N as as') (rs : List Remark) :
    Alike N (rs.map anchor ++ as) (rs.map anchor ++ as') := by
  induction rs with
  | nil => exact h
  | cons r rs ih => exact .inserted _ _ _ _ ih

theorem Alike.closing (root : Option Span) (free : List Remark) :
    Alike N (closing root free) (closing root free) := by
  cases root with
  | none =>
    have h := Alike.nil.anchors_append (N := N) free
    rwa [List.append_nil] at h
  | some s => exact .inserted _ _ _ _ .nil

/-- Pieces of syntax with the same names are the same. -/
theorem Alike.eq (h : Alike Eq as as') : as = as' := by
  induction h with
  | nil => rfl
  | token _ _ _ _ _ _ ih => rw [ih]
  | inserted _ _ _ _ _ ih => rw [ih]
  | branch _ _ _ names _ _ ihb ih => rw [names, ihb, ih]

variable {g : Grammar} {types : List String} {source : ByteArray} {root : Option Span}
  {after : Option Int} {cs cs' rest : List Concrete} {c : Concrete} {blocks blocks' : List Block}

/-- Reading siblings that end with a gap. -/
theorem siblings_of_gap_end (gap : Block.leading g source cs = (blocks, [])) :
    siblings g source root after cs = (do
      let shares ← shareOut g source after blocks
      pure (shares.1.map Remark.trivia, Annotated.closing root shares.2)) := by
  rw [siblings]
  split
  · rename_i h
    cases gap.symm.trans h
    cases root <;> rfl
  · rename_i h
    cases gap.symm.trans h

/-- Reading siblings with a node behind the first gap. -/
theorem siblings_of_gap (gap : Block.leading g source cs = (blocks, c :: rest)) :
    siblings g source root after cs = (do
      let shares ← shareOut g source after blocks
      let span ← Span.between? c.label.start c.label.stop
      if c.isLeaf then
        let more ← siblings g source root (some c.label.stop.row) rest
        pure (shares.1.map Remark.trivia,
          .token (leafType c) (leafText source c) span (shares.2.map Remark.trivia) more.1 ::
            more.2)
      else
        let below ← siblings g source none none (inside g c rest)
        let more ← siblings g source root none (behind g c rest)
        pure (shares.1.map Remark.trivia, shares.2.map anchor ++
          .branch c.label.type (g.role c.label.type) (g.declaredName? source c) span below.2 ::
            more.2)) := by
  rw [siblings]
  split
  · rename_i h
    cases gap.symm.trans h
  · rename_i h
    cases gap.symm.trans h
    rfl

theorem shareOut_of_isLike (h : List.Forall₂ Block.IsLike blocks blocks') :
    shareOut (g.withAdopting types) source after blocks' = shareOut g source after blocks := by
  have hremarks : blocks'.mapM (Block.remark? (g.withAdopting types) source) =
      blocks.mapM (Block.remark? g source) := by
    induction h with
    | nil => rfl
    | cons hb _ ih => rw [List.mapM_cons, List.mapM_cons, hb.remark?, ih]
  rw [shareOut, shareOut, hremarks]

theorem leafType_of_isLike {c' : Concrete} (h : c.label.IsLike c'.label) :
    leafType c' = leafType c := by
  obtain ⟨k, h⟩ := h
  rw [leafType, leafType, h]

theorem leafText_of_isLike {c' : Concrete} (h : c.label.IsLike c'.label) :
    leafText source c' = leafText source c := by
  obtain ⟨k, h⟩ := h
  rw [leafText, leafText, h]

/-- **Siblings that are read in step are read alike**: reading them fails with the same fault, or
gives the same but for names. -/
theorem alike_siblings (root : Option Span) (after : Option Int)
    (h : Concrete.Mirrors g types source N cs cs') :
    Outcome.Alike (fun r r' ↦ r.1 = r'.1 ∧ Alike N r.2 r'.2) (siblings g source root after cs)
      (siblings (g.withAdopting types) source root after cs') := by
  fun_induction siblings g source root after cs generalizing cs' with
  | case1 root after cs blocks gap =>
    have hleading := h.leading
    rw [gap] at hleading
    obtain ⟨hblocks, hrest⟩ := hleading
    generalize gap' : Block.leading (g.withAdopting types) source cs' = front at hblocks hrest
    obtain ⟨blocks', rest'⟩ := front
    cases hrest
    rw [siblings_of_gap_end gap', shareOut_of_isLike hblocks]
    refine .bind_self _ fun shares ↦ ?_
    cases root with
    | none => exact .ok ⟨rfl, .closing none shares.2⟩
    | some s => exact .ok ⟨rfl, .closing (some s) shares.2⟩
  | case2 root after cs blocks c rest gap _ _ _ =>
    rename_i ihl ihb ihm
    have hleading := h.leading
    rw [gap] at hleading
    obtain ⟨hblocks, hrest⟩ := hleading
    generalize gap' : Block.leading (g.withAdopting types) source cs' = front at hblocks hrest
    obtain ⟨blocks', rest'⟩ := front
    cases hrest with
    | comment _ isComment =>
      have hcode := Block.isComment_leading_head g source (congrArg Prod.snd gap)
      rw [hcode] at isComment
      cases isComment
    | @leaf _ c' _ rest' like _ isLeaf isLeaf' more =>
      obtain ⟨k, hk⟩ := like
      rw [siblings_of_gap gap', shareOut_of_isLike hblocks, leafType_of_isLike ⟨k, hk⟩,
        leafText_of_isLike ⟨k, hk⟩, hk]
      refine .bind_self _ fun shares ↦ .bind_self _ fun span ↦ ?_
      rw [if_pos isLeaf, if_pos isLeaf']
      refine .bind (ihl more) fun r r' hr ↦ ?_
      rw [hr.1]
      exact .ok ⟨rfl, .token _ _ _ _ _ hr.2⟩
    | @inner _ c' _ rest' like _ isInner isInner' name inside behind =>
      obtain ⟨k, hk⟩ := like
      rw [siblings_of_gap gap', shareOut_of_isLike hblocks, hk]
      refine .bind_self _ fun shares ↦ .bind_self _ fun span ↦ ?_
      rw [if_neg (by simp [isInner]), if_neg (by simp [isInner'])]
      refine .bind (ihb inside) fun r r' hr ↦ .bind (ihm behind) fun q q' hq ↦ ?_
      exact .ok ⟨rfl, .anchors_append (.branch _ _ _ name hr.2 hq.2) _⟩

end Annotated

/-! ### Trees without names -/

/-- A node without its name. -/
def Node.nameless (n : Node) : Node := { n with name := none }

/-- A tree without names. -/
def Tree.nameless (t : Tree) : Tree where
  nodes := t.nodes.map Node.nameless
  language := t.language
  nonempty := by simpa using t.nonempty
  root_parent := by simpa [Node.nameless] using t.root_parent
  parent_before := fun i hi hpos ↦ by
    have hi' : i < t.nodes.size := by simpa using hi
    simpa [Node.nameless] using t.parent_before i hi' hpos

/-- Trees are known by their nodes and their language. -/
theorem Tree.eq_of_nodes {t t' : Tree} (hn : t.nodes = t'.nodes) (hl : t.language = t'.language) :
    t = t' := by
  obtain ⟨nodes, language, _, _, _⟩ := t
  cases hn
  cases hl
  rfl

namespace Annotated

variable {N : Option String → Option String → Prop} {as as' : List Annotated}

theorem Alike.sizeAll_eq (h : Alike N as as') : sizeAll as = sizeAll as' := by
  induction h with
  | nil => rfl
  | token _ _ _ _ _ _ ih => simp only [sizeAll, size_eq, children, ih]
  | inserted _ _ _ _ _ ih => simp only [sizeAll, size_eq, children, ih]
  | branch _ _ _ _ _ _ ihb ih => simp only [sizeAll, size_eq, children, ihb, ih]

theorem Alike.starts_eq (h : Alike N as as') (i : Nat) : starts i as = starts i as' := by
  induction h generalizing i with
  | nil => rfl
  | token _ _ _ _ _ _ ih => simp only [starts, size_eq, children, ih]
  | inserted _ _ _ _ _ ih => simp only [starts, size_eq, children, ih]
  | branch _ _ _ _ inside _ _ ih =>
    simp only [starts, size_eq, children, inside.sizeAll_eq, ih]

/-- **Pieces of syntax that are the same but for names** lie in an arena as the same nodes but for
their names. -/
theorem Alike.layoutAll_eq (h : Alike N as as') (parent : Option Nat) (i : Nat) :
    (layoutAll parent i as).map Node.nameless = (layoutAll parent i as').map Node.nameless := by
  induction h generalizing parent i with
  | nil => rfl
  | token _ _ _ _ _ _ ih =>
    rw [layoutAll, layoutAll, List.map_append, List.map_append, ih]
  | inserted _ _ _ _ _ ih =>
    rw [layoutAll, layoutAll, List.map_append, List.map_append, ih]
  | branch type role span _ inside _ ihb ih =>
    rw [layoutAll, layoutAll, List.map_append, List.map_append, ih, layout, layout, List.map_cons,
      List.map_cons, ihb, size, size, inside.sizeAll_eq, head, head, inside.starts_eq]
    rfl

/-- Trees of pieces of syntax that are the same but for names are the same but for names. -/
theorem Alike.nameless_toTree (h : Alike N as as') (language : Option Language) (type : String)
    (role : Role) (span : Span) :
    (toTree language (.branch type role none span as)).nameless =
      (toTree language (.branch type role none span as')).nameless := by
  refine Tree.eq_of_nodes ?_ rfl
  refine Array.toList_inj.1 ?_
  simp only [Tree.nameless, toTree, Array.toList_map, layout, List.map_cons, head,
    h.layoutAll_eq, h.starts_eq]

end Annotated

/-! ### Whole trees -/

namespace Grammar

open Annotated

variable {g : Grammar} {types : List String} {source : ByteArray}
  {N : Option String → Option String → Prop} {c c' : Concrete}

/-- Trees whose top nodes report the same, and whose children are read in step, are lowered alike.
-/
theorem alike_tree? (like : c.label.IsLike c'.label)
    (h : Concrete.Mirrors g types source N c.children c'.children) :
    Outcome.Alike (fun t t' ↦ ∃ type role span as as', Annotated.Alike N as as' ∧
        t = toTree (some g.language) (.branch type role none span as) ∧
        t' = toTree (some g.language) (.branch type role none span as'))
      (g.tree? source c) ((g.withAdopting types).tree? source c') := by
  obtain ⟨k, hk⟩ := like
  rw [tree?_eq, tree?_eq, hk]
  refine .bind_self _ fun span ↦ .bind ?_ fun as as' has ↦ .ok ⟨_, _, _, as, as', has, rfl, rfl⟩
  refine Outcome.Alike.mapError (R := Annotated.Alike N) ?_ Fault.span
  exact (Annotated.alike_siblings (some span) none h).map fun _ _ hr ↦ hr.2

/-- Trees that are read in step, with the same names, are lowered to the same. -/
theorem tree?_eq_of_mirrors (like : c.label.IsLike c'.label)
    (h : Concrete.Mirrors g types source Eq c.children c'.children) :
    g.tree? source c = (g.withAdopting types).tree? source c' := by
  have alike := (alike_tree? like h).map (T := Eq) (f := id) (k := id)
    fun t t' ⟨_, _, _, _, _, has, ht, ht'⟩ ↦ by rw [ht, ht', has.eq]
  simpa using alike.eq

/-- Trees that are read in step are lowered to the same but for names. -/
theorem nameless_tree?_of_mirrors (like : c.label.IsLike c'.label)
    (h : Concrete.Mirrors g types source N c.children c'.children) :
    (g.tree? source c).map Tree.nameless =
      ((g.withAdopting types).tree? source c').map Tree.nameless :=
  ((alike_tree? like h).map fun _ _ ⟨_, _, _, _, _, has, ht, ht'⟩ ↦ by
    rw [ht, ht', has.nameless_toTree]).eq

end Grammar

end CommentScope
