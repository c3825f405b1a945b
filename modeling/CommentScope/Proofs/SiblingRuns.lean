import CommentScope.Proofs.Adoption
import CommentScope.Proofs.Attachment
import CommentScope.Proofs.BlockText
import CommentScope.Proofs.SourceOrder
import Mathlib.Data.List.SplitBy

/-!
# Runs of comments among siblings

Lines of documentation that go on from row to row belong together, as many as there are: siblings
are split between any two of which the second does not go on from the first, and the comments among
the pieces are the runs (`Concrete.commentRuns`). The reader finds its blocks from the front. Its
blocks are the runs (`Block.splitBy_eq_leading`), and the trivia below an interior node are those of
the runs of the siblings that the node holds, one for each run and in order
(`Annotated.Reads.families`).
-/

namespace CommentScope

/-! ### Runs -/

namespace Concrete

/-- Whether the text of a comment starts with three slashes and no more. -/
def isDocLine (source : ByteArray) (c : Concrete) : Bool :=
  Comment.isDocLine (c.text source).toList

variable (g : Grammar) (source : ByteArray)

/-- Whether a sibling goes on from the one before it: both are comments and lines of documentation,
and it starts on the row after the one on which the other ends. -/
def goesOn (x y : Concrete) : Bool :=
  g.isComment x && g.isComment y && x.isDocLine source && y.isDocLine source &&
    y.label.start.row == x.label.stop.row + 1

/-- The comments among siblings in runs, of which each is as long as it can be: siblings that go on
from each other stay together. -/
def commentRuns (cs : List Concrete) : List (List Concrete) :=
  (cs.splitBy (goesOn g source)).filter fun run ↦ run.all g.isComment

/-- The siblings that are not taken over by one of them. -/
def kept : List Concrete → List Concrete
  | [] => []
  | c :: rest => if takesOver g c then [c] else c :: kept rest

/-- What the interior nodes among siblings hold, and those in them: lists of siblings, in the order
of the nodes. -/
def families : List Concrete → List (List Concrete)
  | [] => []
  | c :: rest =>
    if g.isComment c || c.isLeaf then families rest
    else kept g (Annotated.inside g c rest) ::
      (families (Annotated.inside g c rest) ++ families (Annotated.behind g c rest))
termination_by cs => weightOfAll cs
decreasing_by
  all_goals
    have hc := c.weight_pos
    have hsplit := Annotated.weight_inside_add_behind g c rest
    simp only [weightOfAll_cons]
    omega

/-- The lists of siblings of a tree, from what the root holds to what the nodes in it hold. -/
def allFamilies (c : Concrete) : List (List Concrete) :=
  kept g c.children :: families g c.children

variable {g source} {c : Concrete} {cs ds rest : List Concrete}

theorem goesOn_eq_false_left (h : g.isComment c = false) (d : Concrete) :
    goesOn g source c d = false := by
  rw [goesOn, h]
  rfl

theorem goesOn_eq_false_right (h : g.isComment c = false) (d : Concrete) :
    goesOn g source d c = false := by
  rw [goesOn, h, Bool.and_false]
  rfl

/-- Siblings that go on from each other are a piece if what is behind them does not go on. -/
theorem splitBy_append_of_isChain (hne : ds ≠ [])
    (hchain : ds.IsChain fun x y ↦ goesOn g source x y = true)
    (hstop : ∀ x ∈ ds.getLast?, ∀ y ∈ rest.head?, goesOn g source x y = false) :
    (ds ++ rest).splitBy (goesOn g source) = ds :: rest.splitBy (goesOn g source) := by
  rw [List.splitBy_append hstop, List.splitBy_of_isChain hne hchain]
  rfl

/-- What is no comment stands alone. -/
theorem splitBy_append_code (h : g.isComment c = false) (ds rest : List Concrete) :
    (ds ++ c :: rest).splitBy (goesOn g source) =
      ds.splitBy (goesOn g source) ++ [c] :: rest.splitBy (goesOn g source) := by
  have halone : ([c] ++ rest).splitBy (goesOn g source) = [c] :: rest.splitBy (goesOn g source) := by
    refine splitBy_append_of_isChain (List.cons_ne_nil c []) (.singleton c) fun x hx y _ ↦ ?_
    obtain rfl : c = x := Option.some.inj hx
    exact goesOn_eq_false_left h y
  rw [List.splitBy_append_cons rest fun x _ ↦ goesOn_eq_false_right h x, ← halone]
  rfl

theorem kept_append_comments (hds : ∀ n ∈ ds, g.isComment n = true) (cs : List Concrete) :
    kept g (ds ++ cs) = ds ++ kept g cs := by
  induction ds with
  | nil => rfl
  | cons d ds ih =>
    obtain ⟨hd, hds⟩ := List.forall_mem_cons.1 hds
    rw [List.cons_append, kept, if_neg (by simp [takesOver, hd]), ih hds]
    rfl

theorem families_append_comments (hds : ∀ n ∈ ds, g.isComment n = true) (cs : List Concrete) :
    families g (ds ++ cs) = families g cs := by
  induction ds with
  | nil => rfl
  | cons d ds ih =>
    obtain ⟨hd, hds⟩ := List.forall_mem_cons.1 hds
    rw [List.cons_append, families, if_pos (by simp [hd]), ih hds]

theorem kept_leaf (hl : c.isLeaf = true) (rest : List Concrete) :
    kept g (c :: rest) = c :: kept g rest := by
  rw [kept, if_neg (by simp [takesOver, hl])]

theorem kept_inner (hc : g.isComment c = false) (hl : c.isLeaf = false) (rest : List Concrete) :
    kept g (c :: rest) = c :: kept g (Annotated.behind g c rest) := by
  rw [kept, Annotated.behind, takesOver, hc, hl]
  cases g.isAdopting c <;> rfl

theorem kept_prefix (cs : List Concrete) : kept g cs <+: cs := by
  induction cs with
  | nil => exact List.prefix_refl []
  | cons c rest ih =>
    rw [kept]
    split
    · exact List.prefix_append [c] rest
    · exact (List.prefix_cons_inj c).2 ih

theorem subset_nodesAll (cs : List Concrete) : cs ⊆ nodesAll cs := by
  intro c hc
  rw [nodesAll_eq_flatMap]
  exact List.mem_flatMap.2 ⟨c, hc, c.self_mem_nodes⟩

/-- The siblings that a node holds are nodes of the tree, and in order if the tree is. -/
theorem of_mem_families {lo hi : Label → Int} {family : List Concrete} (hcs : InOrder lo hi cs)
    (h : family ∈ families g cs) : InOrder lo hi family ∧ family ⊆ nodesAll cs := by
  induction cs using siblings_induction (g := g) with
  | nil =>
    rw [families] at h
    cases h
  | comment c rest hcomment ih =>
    rw [families, if_pos (by simp [hcomment])] at h
    obtain ⟨horder, hnodes⟩ := ih hcs.tail h
    exact ⟨horder, List.Subset.trans hnodes (List.subset_append_right _ _)⟩
  | leaf c rest hcode hleaf ih =>
    rw [families, if_pos (by simp [hleaf])] at h
    obtain ⟨horder, hnodes⟩ := ih hcs.tail h
    exact ⟨horder, List.Subset.trans hnodes (List.subset_append_right _ _)⟩
  | inner c rest hcode hinner ihin ihbe =>
    rw [families, if_neg (by simp [hcode, hinner])] at h
    have hinside := nodesAll_inside_subset (g := g) c rest
    rcases List.mem_cons.1 h with rfl | h
    · have hkept := kept_prefix (g := g) (Annotated.inside g c rest)
      exact ⟨(hcs.inside g).sublist hkept.sublist,
        List.Subset.trans (List.Subset.trans hkept.subset (subset_nodesAll _)) hinside⟩
    · rcases List.mem_append.1 h with h | h
      · obtain ⟨horder, hnodes⟩ := ihin (hcs.inside g) h
        exact ⟨horder, List.Subset.trans hnodes hinside⟩
      · obtain ⟨horder, hnodes⟩ := ihbe (hcs.behind g) h
        exact ⟨horder, List.Subset.trans hnodes (nodesAll_behind_subset c rest)⟩

theorem of_mem_allFamilies {lo hi : Label → Int} {family : List Concrete} (hc : c.OrderedBy lo hi)
    (h : family ∈ c.allFamilies g) : InOrder lo hi family ∧ family ⊆ c.nodes := by
  have hnodes : nodesAll c.children ⊆ c.nodes := by
    rw [nodes_eq_cons, nodesAll_eq_flatMap]
    exact List.subset_cons_self _ _
  rcases List.mem_cons.1 h with rfl | h
  · have hkept := kept_prefix (g := g) c.children
    exact ⟨hc.children.sublist hkept.sublist,
      List.Subset.trans (List.Subset.trans hkept.subset (subset_nodesAll _)) hnodes⟩
  · obtain ⟨horder, hsubset⟩ := of_mem_families hc.children h
    exact ⟨horder, List.Subset.trans hsubset hnodes⟩

/-- The comments of a run are siblings that go on from each other, one after the other. -/
theorem of_mem_commentRuns {run : List Concrete} (h : run ∈ commentRuns g source cs) :
    run.Sublist cs ∧ run.IsChain (fun x y ↦ goesOn g source x y = true) ∧
      ∀ n ∈ run, g.isComment n = true := by
  obtain ⟨hsplit, hcomments⟩ := List.mem_filter.1 h
  refine ⟨?_, List.isChain_of_mem_splitBy hsplit, List.all_eq_true.1 hcomments⟩
  have hsublist := List.sublist_flatten_of_mem hsplit
  rwa [List.flatten_splitBy] at hsublist

end Concrete

/-! ### Blocks are runs -/

namespace Block

open Concrete

variable {g : Grammar} {source : ByteArray}

theorem isComment_of_mem_run {last : Concrete} {cs : List Concrete} {n : Concrete}
    (h : n ∈ (run g source last cs).1) : g.isComment n = true := by
  induction cs generalizing last with
  | nil => cases h
  | cons c rest ih =>
    rw [run] at h
    split at h
    · rename_i hcont
      rcases List.mem_cons.1 h with rfl | h
      · rw [continues, Bool.and_assoc, Bool.and_eq_true] at hcont
        exact hcont.1
      · exact ih h
    · cases h

theorem isComment_of_mem_take {c : Concrete} (hc : g.isComment c = true) {rest : List Concrete}
    {n : Concrete} (h : n ∈ (take g source c rest).1.nodes) : g.isComment n = true := by
  rw [take] at h
  split at h
  · rcases List.mem_cons.1 h with rfl | h
    · exact hc
    · exact isComment_of_mem_run h
  · cases List.mem_singleton.1 h
    exact hc

/-- The nodes of leading blocks are comments. -/
theorem isComment_of_mem_leading (g : Grammar) (source : ByteArray) (cs : List Concrete) :
    ∀ n ∈ (leading g source cs).1.flatMap nodes, g.isComment n = true := by
  fun_induction leading g source cs with
  | case1 => simp
  | case2 c rest hc t l ih =>
    intro n hn
    rcases List.mem_append.1 (List.flatMap_cons ▸ hn) with hn | hn
    · exact isComment_of_mem_take hc hn
    · exact ih n hn
  | case3 => simp

variable {cs rest : List Concrete} {c : Concrete} {blocks : List Block}

/-- Siblings start with a gap, whose nodes are comments. -/
theorem of_leading (gap : leading g source cs = (blocks, rest)) :
    cs = blocks.flatMap nodes ++ rest ∧ ∀ n ∈ blocks.flatMap nodes, g.isComment n = true := by
  have hnodes := nodes_leading g source cs
  have hcomments := isComment_of_mem_leading g source cs
  rw [gap] at hnodes hcomments
  exact ⟨hnodes.symm, hcomments⟩

/-- What the nodes behind a gap hold is what all nodes hold. -/
theorem families_of_leading (gap : leading g source cs = (blocks, rest)) :
    families g cs = families g rest := by
  obtain ⟨rfl, hcomments⟩ := of_leading gap
  exact families_append_comments hcomments rest

/-- The nodes of blocks of comments are pieces of comments. -/
theorem filter_nodes (hcomments : ∀ n ∈ blocks.flatMap nodes, g.isComment n = true) :
    (blocks.map nodes).filter (fun run ↦ run.all g.isComment) = blocks.map nodes := by
  rw [List.filter_eq_self]
  intro run hrun
  obtain ⟨b, hb, rfl⟩ := List.mem_map.1 hrun
  exact List.all_eq_true.2 fun n hn ↦ hcomments n (List.mem_flatMap.2 ⟨b, hb, hn⟩)

variable (hdoc : ∀ c, g.isDocLine source c = c.isDocLine source)
include hdoc

/-- The run behind a line of documentation takes the siblings that go on from it, and stops where
one does not. -/
theorem goesOn_run {last : Concrete} (hlast : g.isComment last = true)
    (hline : g.isDocLine source last = true) (cs : List Concrete) :
    (last :: (run g source last cs).1).IsChain (fun x y ↦ goesOn g source x y = true) ∧
      ∀ x ∈ (last :: (run g source last cs).1).getLast?, ∀ y ∈ (run g source last cs).2.head?,
        goesOn g source x y = false := by
  have hcontinues : ∀ {x : Concrete}, g.isComment x = true → g.isDocLine source x = true →
      ∀ y, continues g source x y = goesOn g source x y := by
    intro x hx hxline y
    rw [goesOn, continues, ← hdoc, ← hdoc, hx, hxline]
    simp only [Bool.true_and, Bool.and_true, Bool.and_assoc]
    rw [Bool.and_comm (g.isDocLine source y)]
  induction cs generalizing last with
  | nil => exact ⟨.singleton last, by simp [run]⟩
  | cons c rest ih =>
    rw [run]
    split
    · rename_i hcont
      have hgoes := hcont
      rw [hcontinues hlast hline] at hgoes
      rw [continues, Bool.and_eq_true, Bool.and_eq_true] at hcont
      obtain ⟨hchain, hstop⟩ := ih hcont.1.1 hcont.2
      refine ⟨List.isChain_cons_cons.2 ⟨hgoes, hchain⟩, ?_⟩
      rwa [List.getLast?_cons_cons]
    · rename_i hcont
      refine ⟨.singleton last, ?_⟩
      intro x hx y hy
      obtain rfl : last = x := Option.some.inj hx
      obtain rfl : c = y := Option.some.inj hy
      rw [← hcontinues hlast hline]
      exact Bool.eq_false_iff.2 hcont

/-- The block that starts with a comment is the first piece of the siblings from there on. -/
theorem splitBy_take {c : Concrete} (hc : g.isComment c = true) (rest : List Concrete) :
    (c :: rest).splitBy (goesOn g source) = (take g source c rest).1.nodes ::
      (take g source c rest).2.splitBy (goesOn g source) := by
  have hchain : (take g source c rest).1.nodes.IsChain (fun x y ↦ goesOn g source x y = true) ∧
      ∀ x ∈ (take g source c rest).1.nodes.getLast?, ∀ y ∈ (take g source c rest).2.head?,
        goesOn g source x y = false := by
    rw [take]
    split
    · rename_i hline
      exact goesOn_run hdoc hc hline rest
    · rename_i hline
      refine ⟨.singleton c, ?_⟩
      intro x hx y _
      obtain rfl : c = x := Option.some.inj hx
      rw [hdoc, Bool.not_eq_true] at hline
      simp [goesOn, hline]
  rw [← nodes_take g source c rest]
  exact splitBy_append_of_isChain (List.cons_ne_nil _ _) hchain.1 hchain.2

/-- **The blocks in front of siblings are their first pieces.** -/
theorem splitBy_eq_leading (cs : List Concrete) :
    cs.splitBy (goesOn g source) = (leading g source cs).1.map nodes ++
      (leading g source cs).2.splitBy (goesOn g source) := by
  fun_induction leading g source cs with
  | case1 => rfl
  | case2 c rest hc t l ih => rw [splitBy_take hdoc hc, ih]; rfl
  | case3 => rfl

/-- The runs of siblings that end with a gap. -/
theorem commentRuns_kept_nil (gap : leading g source cs = (blocks, [])) :
    commentRuns g source (kept g cs) = blocks.map nodes := by
  obtain ⟨hcs, hcomments⟩ := of_leading gap
  have hkept : kept g cs = cs := by
    rw [hcs, kept_append_comments hcomments]
    rfl
  rw [hkept, commentRuns, splitBy_eq_leading hdoc, gap, List.splitBy_nil, List.append_nil,
    filter_nodes hcomments]

/-- The runs of siblings with a node behind the first gap: those of the gap, and those behind the
node, as far as it does not take them over. -/
theorem commentRuns_kept_cons (gap : leading g source cs = (blocks, c :: rest))
    {ds : List Concrete} (hkept : kept g (c :: rest) = c :: ds) :
    commentRuns g source (kept g cs) = blocks.map nodes ++ commentRuns g source ds := by
  have hcode := isComment_leading_head g source (congrArg Prod.snd gap)
  obtain ⟨hcs, hcomments⟩ := of_leading gap
  -- The node stands alone, so what is behind it does not change the pieces before it.
  have hfront : (blocks.flatMap nodes).splitBy (goesOn g source) = blocks.map nodes := by
    have hsplit := splitBy_eq_leading hdoc cs
    rw [gap, hcs, splitBy_append_code hcode, ← List.nil_append (c :: rest),
      splitBy_append_code hcode, List.splitBy_nil] at hsplit
    exact List.append_cancel_right hsplit
  rw [hcs, kept_append_comments hcomments, hkept, commentRuns, splitBy_append_code hcode, hfront,
    List.filter_append, filter_nodes hcomments, List.filter_cons, if_neg (by simp [hcode])]
  rfl

end Block

/-! ### What is read of runs -/

namespace Annotated

open Concrete Outcome

/-- The trivia that a piece of syntax carries itself. -/
def attached : Annotated → List Trivia
  | .token _ _ _ leading trailing => leading ++ trailing
  | .inserted _ _ _ leading => leading
  | .branch .. => []

/-- Whether trivia is that of a run of comments: that of the block which they make. -/
def IsOfRun (g : Grammar) (source : ByteArray) (run : List Concrete) (x : Trivia) : Prop :=
  ∃ b : Block, b.nodes = run ∧ b.HasTrivia g source x

variable {g : Grammar} {source : ByteArray}

theorem forall₂_runs {blocks : List Block} {rs : List Remark}
    (h : blocks.mapM (Block.remark? g source) = .ok rs) :
    List.Forall₂ (IsOfRun g source) (blocks.map Block.nodes) (rs.map Remark.trivia) := by
  induction blocks generalizing rs with
  | nil =>
    cases h
    exact .nil
  | cons b blocks ih =>
    obtain ⟨r, more, hr, hmore, rfl⟩ := mapM_cons_eq_ok_iff.1 h
    exact .cons ⟨b, rfl, r, hr, rfl⟩ (ih hmore)

theorem flatMap_attached_anchors (rs : List Remark) :
    (rs.map anchor).flatMap attached = rs.map Remark.trivia := by
  induction rs with
  | nil => rfl
  | cons r rs ih => rw [List.map_cons, List.flatMap_cons, ih]; rfl

theorem flatMap_attached_closing (root : Option Span) (free : List Remark) :
    (closing root free).flatMap attached = free.map Remark.trivia := by
  cases root with
  | none => exact flatMap_attached_anchors free
  | some s => exact List.append_nil _

variable (hdoc : ∀ c, g.isDocLine source c = c.isDocLine source)
include hdoc

/-- **One trivia for each run.** What the siblings are read as carries the trivia of their runs, one
for each run and in order; the first of them may trail the leaf before the siblings. -/
theorem Reads.own {root : Option Span} {after : Option Int} {cs : List Concrete}
    {lead : List Trivia} {as : List Annotated} (h : Reads g source root after cs lead as)
    (hcs : Follows after cs) :
    List.Forall₂ (IsOfRun g source) (commentRuns g source (Concrete.kept g cs))
      (lead ++ as.flatMap attached) := by
  induction h with
  | @last root after cs blocks trailing free gap shares =>
    have hruns := forall₂_runs (remarks_of_shareOut gap shares hcs)
    rw [Block.commentRuns_kept_nil hdoc gap, flatMap_attached_closing, ← List.map_append]
    exact hruns
  | @leaf root after cs rest c blocks trailing free span lead as gap shares place isLeaf more ih =>
    have hruns := forall₂_runs (remarks_of_shareOut gap shares hcs)
    rw [Block.commentRuns_kept_cons hdoc gap (kept_leaf isLeaf rest), List.flatMap_cons, attached,
      List.append_assoc, ← List.append_assoc, ← List.map_append]
    exact List.rel_append hruns (ih (hcs.leaf gap))
  | @inner root after cs rest c blocks trailing free span leadBelow lead below as gap shares place
      isInner hbelow hmore ihb ihm =>
    have hcode := Block.isComment_leading_head g source (congrArg Prod.snd gap)
    have hruns := forall₂_runs (remarks_of_shareOut gap shares hcs)
    have hbehind := ihm (hcs.behind gap)
    rw [hmore.lead_eq_nil, List.nil_append] at hbehind
    rw [Block.commentRuns_kept_cons hdoc gap (kept_inner hcode isInner rest), List.flatMap_append,
      flatMap_attached_anchors, List.flatMap_cons, attached, List.nil_append, ← List.append_assoc,
      ← List.map_append]
    exact List.rel_append hruns hbehind

/-- **Interior nodes carry the runs of what they hold**: below each of them are the trivia of the
runs of its siblings, one for each run and in order. -/
theorem Reads.families {root : Option Span} {after : Option Int} {cs : List Concrete}
    {lead : List Trivia} {as : List Annotated} (h : Reads g source root after cs lead as)
    (hcs : Follows after cs) :
    List.Forall₂ (fun family a ↦ List.Forall₂ (IsOfRun g source) (commentRuns g source family)
      (a.children.flatMap attached)) (Concrete.families g cs) (branchesAll as) := by
  induction h with
  | @last root after cs blocks trailing free gap shares =>
    rw [Block.families_of_leading gap, Concrete.families, branchesAll_closing]
    exact .nil
  | @leaf root after cs rest c blocks trailing free span lead as gap shares place isLeaf more ih =>
    rw [Block.families_of_leading gap, Concrete.families, if_pos (by simp [isLeaf])]
    exact ih (hcs.leaf gap)
  | @inner root after cs rest c blocks trailing free span leadBelow lead below as gap shares place
      isInner hbelow hmore ihb ihm =>
    have hcode := Block.isComment_leading_head g source (congrArg Prod.snd gap)
    have hown := hbelow.own hdoc (hcs.inside gap)
    rw [hbelow.lead_eq_nil] at hown
    rw [Block.families_of_leading gap, Concrete.families, if_neg (by simp [hcode, isInner]),
      branchesAll_append, branchesAll_anchors]
    exact .cons hown (List.rel_append (ihb (hcs.inside gap)) (ihm (hcs.behind gap)))

end Annotated

/-- The trivia that the nodes below a node carry, in order. -/
def Tree.attachedBelow (t : Tree) (i : Fin t.size) : List Trivia :=
  (t.below i).flatMap fun j ↦ (t.node j).leading ++ (t.node j).trailing

theorem Annotated.attached_eq (a : Annotated) (parent : Option Nat) (i : Nat) :
    (a.head parent i).leading ++ (a.head parent i).trailing = a.attached := by
  cases a with
  | token => rfl
  | inserted => exact List.append_nil _
  | branch => rfl

/-- Nodes of an arena carry what the syntax that lies there carries. -/
theorem Annotated.flatMap_attached {t : Tree} {parent : Option Nat} {as : List Annotated}
    {is : List (Fin t.size)}
    (h : List.Forall₂ (fun a j ↦ t.node j = a.head parent j) as is) :
    as.flatMap attached = is.flatMap fun j ↦ (t.node j).leading ++ (t.node j).trailing := by
  induction h with
  | nil => rfl
  | cons ha _ ih => rw [List.flatMap_cons, List.flatMap_cons, ih, ha, attached_eq]

open Annotated Concrete in
/-- **The trivia below the interior nodes of a tree are those of the runs** of the siblings that the
nodes hold, if the rows are in order. -/
theorem Grammar.forall₂_families {g : Grammar} {source : ByteArray} {c : Concrete} {t : Tree}
    (hdoc : ∀ c, g.isDocLine source c = c.isDocLine source) (hc : c.RowsInOrder)
    (h : g.tree? source c = .ok t) :
    List.Forall₂ (fun family i ↦ List.Forall₂ (IsOfRun g source) (commentRuns g source family)
      (t.attachedBelow i)) (c.allFamilies g) t.interior := by
  obtain ⟨span, below, hspan, hbelow, rfl⟩ := (tree?_eq_ok_iff g source).1 h
  obtain ⟨⟨lead, as⟩, hsiblings, rfl⟩ := Outcome.map_eq_ok_iff.1 hbelow
  have hreads := reads_of_siblings hsiblings
  have hfollows : Follows none c.children := follows_none hc.children
  have hown := hreads.own hdoc hfollows
  rw [hreads.lead_eq_nil] at hown
  have hroot : List.Forall₂ (IsOfRun g source) (commentRuns g source (Concrete.kept g c.children))
      ((Annotated.branch c.label.type (g.role c.label.type) none span as).children.flatMap
        attached) := hown
  refine forall₂_through ?_ (.cons hroot (hreads.families hdoc hfollows))
    (Tree.forall₂_interior (some g.language) _)
  rintro family a i hruns ⟨-, hnodes⟩
  rw [Tree.attachedBelow, ← flatMap_attached hnodes]
  exact hruns

end CommentScope
