import CommentScope.Proofs.ConcreteOrder
import CommentScope.Proofs.Reading
import CommentScope.Proofs.WalkOrder

/-!
# Reading keeps the order of the source

A walk of the tree of a concrete tree passes what is met in the concrete tree, in the same order and
each thing once, if the rows of the concrete tree are in order (`Grammar.walk_keeps_order`). What it
passes beyond that are tokens without text that were inserted for comments.

Two facts make up the proof. Comments that trail a leaf are moved before the free comments of the
same gap; since the rows on which comments start do not fall, none of them is moved
(`Annotated.remarks_of_shareOut`). And the nodes of the arena have the passages of the syntax that
was laid out (`Annotated.passagesAll_eq`), whatever the rows are.
-/

namespace CommentScope

/-- What a walk passes, apart from where it stands in the arena. -/
inductive Passage where
  | node (e : Entry)
  | token (e : Entry)
  | comment (t : Trivia)

/-- What an event shows. -/
def Tree.passage (t : Tree) : t.Event → Passage
  | .node i => .node (t.node i).entry
  | .token i => .token (t.node i).entry
  | .trivia _ item => .comment item

/-- Whether a node is a token without text and without width, of a type that is inserted for
comments. -/
def Node.IsPlaceholder (n : Node) : Prop :=
  (∃ filler : Filler, n.type = filler.type) ∧ n.text = some "" ∧ n.span.start = n.span.stop

/-- Events without those of some tokens; the comments at these tokens stay. -/
def Tree.without (t : Tree) (inserted : Fin t.size → Bool) (events : List t.Event) : List t.Event :=
  events.filter fun
    | .token i => !inserted i
    | _ => true

namespace Landmark

variable (g : Grammar) (source : ByteArray)

/-- What a walk is to pass for a landmark. -/
def passage? : Landmark → Except Span.Fault Passage
  | .root c => (Arranged.entryOfRoot? g c).map .node
  | .inner c => (Arranged.entryOfInner? g source c).map .node
  | .leaf c => (Arranged.entryOfLeaf? source c).map .token
  | .comment b => (b.remark? g source).map fun r ↦ .comment r.trivia

section

variable {g source} {c : Concrete} {span : Span}
  (h : Span.between? c.label.start c.label.stop = .ok span)

include h

theorem passage?_root : (root c).passage? g source =
    .ok (.node ⟨c.label.type, g.role c.label.type, none, span, none⟩) := by
  rw [passage?, Arranged.entryOfRoot?_eq_ok h]
  rfl

theorem passage?_inner : (inner c).passage? g source =
    .ok (.node ⟨c.label.type, g.role c.label.type, g.declaredName? source c, span, none⟩) := by
  rw [passage?, Arranged.entryOfInner?_eq_ok h]
  rfl

theorem passage?_leaf : (leaf c).passage? g source =
    .ok (.token ⟨Draft.tokenType (some (Annotated.leafType c)) (Annotated.leafText source c),
      .nothing, none, span, some (Annotated.leafText source c)⟩) := by
  rw [passage?, Arranged.entryOfLeaf?_eq_ok h]
  rfl

end

/-- The nodes of a concrete tree that a landmark stands for. -/
def nodes : Landmark → List Concrete
  | .root c | .inner c | .leaf c => [c]
  | .comment b => b.nodes

end Landmark

/-! ### Landmarks and nodes -/

namespace Concrete

variable (g : Grammar)

mutual

/-- The nodes of a tree, each before what is below it. Nothing below a comment is met. -/
def met : Concrete → List Concrete
  | ⟨l, cs⟩ => if g.isComment ⟨l, cs⟩ then [⟨l, cs⟩] else ⟨l, cs⟩ :: metAll cs

/-- The nodes of the trees of a list, in order. -/
def metAll : List Concrete → List Concrete
  | [] => []
  | c :: cs => met c ++ metAll cs

end

theorem met_eq (c : Concrete) :
    c.met g = if g.isComment c then [c] else c :: metAll g c.children := by
  cases c
  rw [met]
  rfl

theorem metAll_append (cs ds : List Concrete) :
    metAll g (cs ++ ds) = metAll g cs ++ metAll g ds := by
  induction cs with
  | nil => rfl
  | cons c cs ih => rw [List.cons_append, metAll, metAll, ih, List.append_assoc]

mutual

theorem met_subset : ∀ c : Concrete, c.met g ⊆ c.nodes
  | ⟨l, cs⟩ => by
    rw [met, nodes]
    split
    · exact List.cons_subset_cons _ (List.nil_subset _)
    · exact List.cons_subset_cons _ (metAll_subset cs)

theorem metAll_subset : ∀ cs : List Concrete, metAll g cs ⊆ nodesAll cs
  | [] => List.nil_subset _
  | c :: cs => by
    rw [metAll, nodesAll]
    exact List.append_subset.2 ⟨List.Subset.trans (met_subset c) (List.subset_append_left _ _),
      List.Subset.trans (metAll_subset cs) (List.subset_append_right _ _)⟩

end

end Concrete

namespace Arranged

variable {g : Grammar} {source : ByteArray}

theorem landmarksAll_append (xs ys : List Arranged) :
    landmarksAll (xs ++ ys) = landmarksAll xs ++ landmarksAll ys := by
  induction xs with
  | nil => rfl
  | cons x xs ih => rw [List.cons_append, landmarksAll, landmarksAll, ih, List.append_assoc]

theorem landmarksAll_comments (blocks : List Block) :
    landmarksAll (blocks.map .comment) = blocks.map .comment := by
  induction blocks with
  | nil => rfl
  | cons b blocks ih => rw [List.map_cons, landmarksAll, landmarks, ih]; rfl

theorem nodes_prepend (c : Concrete) (xs : List Arranged) :
    (landmarksAll (prepend g source c xs)).flatMap Landmark.nodes =
      c :: (landmarksAll xs).flatMap Landmark.nodes := by
  unfold prepend
  split
  · split <;> rfl
  · rfl

/-- **Arranging loses no node and keeps their order**: joining comments to blocks and moving adopted
siblings down changes nothing in the order in which the nodes are met. -/
theorem nodes_ofSiblings (cs : List Concrete) :
    (landmarksAll (ofSiblings g source cs)).flatMap Landmark.nodes = Concrete.metAll g cs := by
  fun_induction ofSiblings g source cs with
  | case1 => rfl
  | case2 c rest hc ih =>
    rw [nodes_prepend, ih, Concrete.metAll, Concrete.met_eq, if_pos hc]
    rfl
  | case3 c rest hc hl ih =>
    have hnil : c.children = [] := List.isEmpty_iff.1 hl
    rw [landmarksAll, landmarks, List.flatMap_append, ih, Concrete.metAll, Concrete.met_eq,
      if_neg hc, hnil]
    rfl
  | case4 c rest hc _ _ ih =>
    rw [landmarksAll, landmarks, landmarksAll, List.append_nil, List.flatMap_cons, ih,
      Concrete.metAll_append, Concrete.metAll, Concrete.met_eq, if_neg hc]
    rfl
  | case5 c rest hc _ _ ihc ih =>
    rw [landmarksAll, landmarks, List.flatMap_append, List.flatMap_cons, ihc, ih, Concrete.metAll,
      Concrete.met_eq, if_neg hc]
    rfl

end Arranged

/-! ### What laid out syntax shows -/

namespace Annotated

/-- The passages of trivia. -/
def comments (ts : List Trivia) : List Passage := ts.map .comment

mutual

/-- What a walk of a piece of syntax passes, without inserted tokens. -/
def passages : Annotated → List Passage
  | .token type text span leading trailing =>
    comments leading ++
      .token ⟨Draft.tokenType (some type) text, .nothing, none, span, some text⟩ ::
        comments trailing
  | .inserted _ _ _ leading => comments leading
  | .branch type role name span as => .node ⟨type, role, name, span, none⟩ :: passagesAll as

/-- What a walk of pieces of syntax passes, one after the other. -/
def passagesAll : List Annotated → List Passage
  | [] => []
  | a :: as => passages a ++ passagesAll as

end

theorem passagesAll_append (as bs : List Annotated) :
    passagesAll (as ++ bs) = passagesAll as ++ passagesAll bs := by
  induction as with
  | nil => rfl
  | cons a as ih => rw [List.cons_append, passagesAll, passagesAll, ih, List.append_assoc]

theorem passagesAll_anchors (rs : List Remark) :
    passagesAll (rs.map anchor) = comments (rs.map Remark.trivia) := by
  induction rs with
  | nil => rfl
  | cons r rs ih => rw [List.map_cons, passagesAll, ih]; rfl

theorem passagesAll_closing (root : Option Span) (free : List Remark) :
    passagesAll (closing root free) = comments (free.map Remark.trivia) := by
  cases root with
  | none => exact passagesAll_anchors free
  | some s => exact List.append_nil _

end Annotated

/-! ### Comments of a gap -/

/-- Members that satisfy a predicate may be moved to the front of a list if they stand there. -/
theorem filter_append_filter_not {α : Type} {p : α → Bool} {l : List α}
    (h : l.Pairwise fun a b ↦ p b = true → p a = true) :
    l.filter p ++ l.filter (fun a ↦ !p a) = l := by
  induction l with
  | nil => rfl
  | cons a l ih =>
    obtain ⟨ha, hl⟩ := List.pairwise_cons.1 h
    cases hp : p a with
    | true =>
      rw [List.filter_cons_of_pos hp, List.filter_cons_of_neg (by simp [hp]), List.cons_append,
        ih hl]
    | false =>
      have hnone : ∀ b ∈ a :: l, p b = false := by
        refine List.forall_mem_cons.2 ⟨hp, fun b hb ↦ Bool.eq_false_iff.2 fun hb' ↦ ?_⟩
        rw [ha b hb hb'] at hp
        cases hp
      rw [List.filter_eq_nil_iff.2 fun b hb ↦ by simp [hnone b hb],
        List.filter_eq_self.2 fun b hb ↦ by simp [hnone b hb], List.nil_append]

namespace Annotated

open Concrete Outcome

variable {g : Grammar} {source : ByteArray}

/-- A comment starts on the row on which the first node of its block starts. -/
theorem start_of_remark? {b : Block} {r : Remark} (h : b.remark? g source = .ok r) :
    r.span.start = b.first.label.start := by
  obtain ⟨span, hspan, h⟩ := bind_eq_ok_iff.1 h
  obtain ⟨trivia, -, h⟩ := bind_eq_ok_iff.1 h
  cases h
  exact (Span.between?_eq_ok hspan).1

theorem startLine_of_remark? {b : Block} {r : Remark} (h : b.remark? g source = .ok r) :
    (r.span.startLine : Int) = b.first.label.start.row :=
  congrArg Point.row (start_of_remark? h)

theorem startLines_of_remarks {blocks : List Block} {rs : List Remark}
    (h : blocks.mapM (Block.remark? g source) = .ok rs) :
    rs.map (fun r ↦ (r.span.startLine : Int)) = blocks.map fun b ↦ b.first.label.start.row := by
  induction blocks generalizing rs with
  | nil => cases h; rfl
  | cons b blocks ih =>
    obtain ⟨r, rest, hr, hrest, rfl⟩ := mapM_cons_eq_ok_iff.1 h
    rw [List.map_cons, List.map_cons, startLine_of_remark? hr, ih hrest]

/-- The first nodes of blocks stand among the nodes of the blocks, in order. -/
theorem firsts_sublist (blocks : List Block) :
    (blocks.map Block.first).Sublist (blocks.flatMap Block.nodes) := by
  induction blocks with
  | nil => exact .slnil
  | cons b blocks ih =>
    rw [List.map_cons, List.flatMap_cons, Block.nodes, List.cons_append]
    exact (ih.trans (List.sublist_append_right b.more _)).cons_cons b.first

/-- Whether siblings are in order and none of them starts before the row on which the leaf before
them ends. -/
structure Follows (after : Option Int) (cs : List Concrete) : Prop where
  inOrder : InOrder Label.startRow Label.stopRow cs
  starts : ∀ row, after = some row → ∀ c ∈ cs, row ≤ c.label.start.row

section

variable {after : Option Int} {cs rest : List Concrete} {c : Concrete} {blocks : List Block}

/-- Siblings that no leaf stands before follow nothing. -/
theorem follows_none (h : InOrder Label.startRow Label.stopRow cs) : Follows none cs :=
  ⟨h, by rintro row ⟨⟩⟩

/-- What stands behind the leading blocks of siblings is in order. -/
theorem Follows.inOrder_rest (h : Follows after cs)
    (gap : Block.leading g source cs = (blocks, rest)) :
    InOrder Label.startRow Label.stopRow rest := by
  refine h.inOrder.sublist ?_
  have hnodes := Block.nodes_leading g source cs
  rw [gap] at hnodes
  rw [← hnodes]
  exact List.sublist_append_right _ _

theorem Follows.leaf (h : Follows after cs)
    (gap : Block.leading g source cs = (blocks, c :: rest)) :
    Follows (some c.label.stop.row) rest := by
  have htail := h.inOrder_rest gap
  refine ⟨htail.tail, ?_⟩
  rintro row ⟨⟩ d hd
  exact htail.hi_le d hd

theorem Follows.inside (h : Follows after cs)
    (gap : Block.leading g source cs = (blocks, c :: rest)) :
    Follows none (inside g c rest) :=
  follows_none ((h.inOrder_rest gap).inside g)

theorem Follows.behind (h : Follows after cs)
    (gap : Block.leading g source cs = (blocks, c :: rest)) :
    Follows none (behind g c rest) :=
  follows_none ((h.inOrder_rest gap).behind g)

end

/-- **Sharing out the comments of a gap keeps their order** if the rows of the siblings are in
order: comments on the row on which the leaf before them ends stand before all others. -/
theorem remarks_of_shareOut {after : Option Int} {cs rest : List Concrete} {blocks : List Block}
    {trailing free : List Remark} (gap : Block.leading g source cs = (blocks, rest))
    (shares : shareOut g source after blocks = .ok (trailing, free)) (hcs : Follows after cs) :
    blocks.mapM (Block.remark? g source) = .ok (trailing ++ free) := by
  obtain ⟨rs, hrs, rfl, rfl⟩ := shareOut_eq_ok_iff.1 shares
  have hfirsts : (blocks.map Block.first).Sublist cs := by
    have hnodes := Block.nodes_leading g source cs
    rw [gap] at hnodes
    rw [← hnodes]
    exact (firsts_sublist blocks).trans (List.sublist_append_left _ _)
  have hrows : rs.map (fun r ↦ (r.span.startLine : Int)) =
      (blocks.map Block.first).map fun c ↦ c.label.start.row := by
    rw [startLines_of_remarks hrs, List.map_map]
    rfl
  have hmono : (rs.map fun r ↦ (r.span.startLine : Int)).Pairwise (· ≤ ·) := by
    rw [hrows, List.pairwise_map]
    exact hcs.inOrder.pairwise_lo.sublist hfirsts
  have hfrom : ∀ row, after = some row → ∀ r ∈ rs, row ≤ (r.span.startLine : Int) := by
    intro row hrow r hr
    have hmem := List.mem_map_of_mem (f := fun r : Remark ↦ (r.span.startLine : Int)) hr
    rw [hrows] at hmem
    obtain ⟨c, hc, hrc⟩ := List.mem_map.1 hmem
    have hle := hcs.starts row hrow c (hfirsts.subset hc)
    simpa [hrc] using hle
  rw [hrs, filter_append_filter_not]
  refine (List.pairwise_map.1 hmono).imp_of_mem fun {a b} ha _ hab hb ↦ ?_
  simp only [startsOn, beq_iff_eq] at hb ⊢
  have hle := hfrom _ hb a ha
  rw [hb]
  congr 1
  omega

/-! ### What siblings are read as shows their landmarks -/

theorem comments_append (ts us : List Trivia) : comments (ts ++ us) = comments ts ++ comments us :=
  List.map_append

/-- The landmarks of blocks show the trivia of the blocks. -/
theorem passages_of_remarks {blocks : List Block} {rs : List Remark}
    (h : blocks.mapM (Block.remark? g source) = .ok rs) :
    (blocks.map Landmark.comment).mapM (Landmark.passage? g source) =
      .ok (comments (rs.map Remark.trivia)) := by
  induction blocks generalizing rs with
  | nil => cases h; rfl
  | cons b blocks ih =>
    obtain ⟨r, rest, hr, hrest, rfl⟩ := mapM_cons_eq_ok_iff.1 h
    exact mapM_cons_eq_ok_iff.2 ⟨_, _, map_eq_ok_iff.2 ⟨r, hr, rfl⟩, ih hrest, rfl⟩

/-- **Reading siblings keeps their order.** The comments that trail the leaf before them come first,
then what the pieces of syntax show. The rows on which comments start are compared with the row on
which that leaf ends, so this is carried along. -/
theorem Reads.landmarks_show {root : Option Span} {after : Option Int} {cs : List Concrete}
    {lead : List Trivia} {as : List Annotated} (h : Reads g source root after cs lead as)
    (hcs : Follows after cs) :
    (Arranged.landmarksAll (Arranged.ofSiblings g source cs)).mapM (Landmark.passage? g source) =
      .ok (comments lead ++ passagesAll as) := by
  induction h with
  | @last root after cs blocks trailing free gap shares =>
    have hrs := remarks_of_shareOut gap shares hcs
    rw [Arranged.ofSiblings_of_leading_nil gap, Arranged.landmarksAll_comments,
      passages_of_remarks hrs, passagesAll_closing, ← comments_append, List.map_append]
  | @leaf root after cs rest c blocks trailing free span lead as gap shares place isLeaf more ih =>
    have hrs := remarks_of_shareOut gap shares hcs
    have hrest := ih (hcs.leaf gap)
    rw [Arranged.ofSiblings_of_leading_leaf gap isLeaf, Arranged.landmarksAll_append,
      Arranged.landmarksAll_comments]
    refine mapM_append_eq_ok_iff.2 ⟨_, _, passages_of_remarks hrs, mapM_cons_eq_ok_iff.2
      ⟨_, _, Landmark.passage?_leaf place, hrest, rfl⟩, ?_⟩
    rw [passagesAll, List.map_append, comments_append]
    simp [passages]
  | @inner root after cs rest c blocks trailing free span leadBelow lead below as gap shares place
      isInner hbelow hmore ihb ihm =>
    have hrs := remarks_of_shareOut gap shares hcs
    have hin := ihb (hcs.inside gap)
    have hbehind := ihm (hcs.behind gap)
    -- Nothing trails an interior node, nor what stands before its children.
    rw [hbelow.lead_eq_nil] at hin
    rw [hmore.lead_eq_nil] at hbehind
    rw [Arranged.ofSiblings_of_leading_inner gap isInner, Arranged.landmarksAll_append,
      Arranged.landmarksAll_comments]
    refine mapM_append_eq_ok_iff.2 ⟨_, _, passages_of_remarks hrs, mapM_append_eq_ok_iff.2
      ⟨_, _, mapM_cons_eq_ok_iff.2 ⟨_, _, Landmark.passage?_inner place, hin, rfl⟩, hbehind, rfl⟩,
        ?_⟩
    rw [passagesAll_append, passagesAll_anchors, passagesAll, List.map_append, comments_append]
    simp [passages, comments]

/-! ### What a walk of the arena passes -/

mutual

/-- Which nodes of a piece of syntax are inserted, in the order of its layout. -/
def marks : Annotated → List Bool
  | .token .. => [false]
  | .inserted .. => [true]
  | .branch _ _ _ _ as => false :: marksAll as

/-- Which nodes of pieces of syntax are inserted, in the order of their layout. -/
def marksAll : List Annotated → List Bool
  | [] => []
  | a :: as => marks a ++ marksAll as

end

end Annotated

/-- What a walk passes at a node, without the node itself if it is inserted. -/
def Node.passages (n : Node) (inserted : Bool) : List Passage :=
  if n.isToken then
    Annotated.comments n.leading ++ (if inserted then [] else [.token n.entry]) ++
      Annotated.comments n.trailing
  else [.node n.entry]

namespace Annotated

/-- Which nodes are inserted is known of each node of the layout. -/
theorem length_marksAll (as : List Annotated) : (marksAll as).length = sizeAll as := by
  induction as using forest_induction with
  | nil => rfl
  | cons a as ihc ih =>
    have hmarks : a.marks.length = a.size := by
      cases a with
      | branch _ _ _ _ bs => exact congrArg Nat.succ ihc
      | _ => rfl
    rw [marksAll, List.length_append, hmarks, ih, sizeAll]

theorem length_marks (a : Annotated) : a.marks.length = a.size := by
  have h := length_marksAll [a]
  rwa [marksAll, marksAll, List.append_nil, sizeAll, sizeAll, Nat.add_zero] at h

/-- **The nodes of laid out syntax show what the syntax shows.** -/
theorem passagesAll_eq (parent : Option Nat) (i : Nat) (as : List Annotated) :
    ((layoutAll parent i as).zip (marksAll as)).flatMap (fun x ↦ x.1.passages x.2) =
      passagesAll as := by
  induction as using forest_induction generalizing parent i with
  | nil => rfl
  | cons a as ihc ih =>
    have hlen : (a.layout parent i).length = a.marks.length := by
      rw [length_layout, length_marks]
    have hown : ((a.layout parent i).zip a.marks).flatMap (fun x ↦ x.1.passages x.2) =
        passages a := by
      cases a with
      | token => simp [layout, marks, Node.passages, head, Node.isToken, passages, Node.entry]
      | inserted => simp [layout, marks, Node.passages, head, Node.isToken, passages, comments]
      | branch type role name span bs =>
        rw [layout, marks, List.zip_cons_cons, List.flatMap_cons]
        exact congrArg _ (ihc (some i) (i + 1))
    rw [layoutAll, marksAll, List.zip_append hlen, List.flatMap_append, hown, ih, passagesAll]

/-- Every inserted node is a placeholder. -/
theorem isPlaceholder_of_mem_zip {parent : Option Nat} {i : Nat} {as : List Annotated} {n : Node}
    (h : (n, true) ∈ (layoutAll parent i as).zip (marksAll as)) : n.IsPlaceholder := by
  induction as using forest_induction generalizing parent i with
  | nil => simp [layoutAll] at h
  | cons a as ihc ih =>
    have hlen : (a.layout parent i).length = a.marks.length := by
      rw [length_layout, length_marks]
    rw [layoutAll, marksAll, List.zip_append hlen, List.mem_append] at h
    rcases h with h | h
    · cases a with
      | token => simp [layout, marks] at h
      | inserted filler line column leading =>
        simp only [layout, marks, List.zip_cons_cons, List.zip_nil_left, List.mem_singleton,
          Prod.mk.injEq, and_true] at h
        subst h
        exact ⟨⟨filler, by cases filler <;> rfl⟩, rfl, rfl⟩
      | branch type role name span bs =>
        rw [layout, marks, List.zip_cons_cons, List.mem_cons] at h
        rcases h with h | h
        · cases h
        · exact ihc h
    · exact ih h

end Annotated

namespace Tree

open Annotated

variable {t : Tree}

theorem passages_append (inserted : Fin t.size → Bool) (xs ys : List t.Event) :
    (t.without inserted (xs ++ ys)).map t.passage =
      (t.without inserted xs).map t.passage ++ (t.without inserted ys).map t.passage := by
  rw [without, List.filter_append, List.map_append]
  rfl

theorem passages_trivia (inserted : Fin t.size → Bool) (i : Fin t.size) (ts : List Trivia) :
    (t.without inserted (ts.flatMap (t.triviaEvents false i))).map t.passage = comments ts := by
  induction ts with
  | nil => rfl
  | cons item ts ih =>
    rw [List.flatMap_cons, passages_append, ih]
    rfl

/-- What a walk passes at one node. -/
theorem passages_visit (inserted : Fin t.size → Bool) (i : Fin t.size) :
    (t.without inserted (t.visit false i)).map t.passage = (t.node i).passages (inserted i) := by
  have htoken : (t.without inserted [.token i]).map t.passage =
      if inserted i then [] else [.token (t.node i).entry] := by
    cases h : inserted i <;> simp [without, h, passage]
  rw [visit, Node.passages]
  split
  · rw [← List.singleton_append, passages_append, passages_append, passages_trivia,
      passages_trivia, htoken, List.append_assoc]
  · rfl

/-- **A walk shows the layout of the syntax**, from the first node to the last. -/
theorem passages_walk (language : Option Language) (root : Annotated) :
    let t := root.toTree language
    ∃ inserted : Fin t.size → Bool, (∀ i, inserted i = true → (t.node i).IsPlaceholder) ∧
      (t.without inserted (t.walk false).events).map t.passage = root.passages := by
  intro t
  have hmarks : root.marks.length = t.size := by
    rw [Annotated.length_marks, size_toTree]
  have hzip : (List.finRange t.size).map (fun i ↦ (t.node i, root.marks.getD i false)) =
      (root.layout none 0).zip root.marks := by
    refine List.ext_getElem ?_ fun i h₁ h₂ ↦ ?_
    · simp [length_layout, Annotated.length_marks, hmarks ▸ Annotated.length_marks root]
    · have hi : i < root.marks.length := by
        rw [List.length_zip] at h₂
        omega
      rw [List.getElem_map, List.getElem_finRange, List.getElem_zip]
      refine Prod.ext rfl ?_
      show root.marks.getD i false = root.marks[i]
      rw [List.getD_eq_getElem?_getD, List.getElem?_eq_getElem hi, Option.getD_some]
  have hforest : (layoutAll none 0 [root]).zip (marksAll [root]) =
      (root.layout none 0).zip root.marks := by
    simp [layoutAll, marksAll]
  refine ⟨fun i ↦ root.marks.getD i false, fun i hi ↦ ?_, ?_⟩
  · have hmem := @isPlaceholder_of_mem_zip none 0 [root] (t.node i)
    rw [hforest, ← hzip] at hmem
    refine hmem ?_
    exact List.mem_map.2 ⟨i, List.mem_finRange i, Prod.ext rfl hi⟩
  · have hroot := passagesAll_eq none 0 [root]
    rw [hforest, ← hzip, List.flatMap_map, passagesAll, passagesAll, List.append_nil] at hroot
    rw [walk, walkRounds_toTree language root false Nat.one_pos, ← hroot, without,
      List.filter_flatMap, List.map_flatMap]
    congr 1
    funext i
    exact passages_visit _ i

end Tree

/-! ### Trees of concrete trees -/

/-- The landmarks of a concrete tree: its root, and what its arrangement says. -/
def Concrete.landmarks (g : Grammar) (source : ByteArray) (c : Concrete) : List Landmark :=
  .root c :: Arranged.landmarksAll (Arranged.ofRoot g source c)

/-- The blocks of a concrete tree are met below its root. -/
theorem Concrete.comment_mem_landmarks_iff {g : Grammar} {source : ByteArray} {c : Concrete}
    {b : Block} : .comment b ∈ c.landmarks g source ↔
      .comment b ∈ Arranged.landmarksAll (Arranged.ofSiblings g source c.children) := by
  rw [landmarks, List.mem_cons, or_iff_right (by rintro ⟨⟩)]
  rfl

/-- The nodes of the landmarks are the nodes that are met. -/
theorem Concrete.nodes_landmarks (g : Grammar) (source : ByteArray) (c : Concrete) :
    (c.landmarks g source).flatMap Landmark.nodes = c :: metAll g c.children := by
  rw [Concrete.landmarks, List.flatMap_cons, Arranged.ofRoot, Arranged.nodes_ofSiblings]
  rfl

/-- The nodes of landmarks are nodes of the tree. -/
theorem Concrete.mem_nodes_of_mem_landmarks {g : Grammar} {source : ByteArray} {c n : Concrete}
    {l : Landmark} (hl : l ∈ c.landmarks g source) (hn : n ∈ l.nodes) : n ∈ c.nodes := by
  have hmem : n ∈ (c.landmarks g source).flatMap Landmark.nodes := List.mem_flatMap.2 ⟨l, hl, hn⟩
  rw [nodes_landmarks] at hmem
  rw [nodes_eq_cons]
  rcases List.mem_cons.1 hmem with rfl | hmem
  · exact List.mem_cons_self
  · rw [← nodesAll_eq_flatMap]
    exact List.mem_cons_of_mem _ (metAll_subset g _ hmem)

namespace Grammar

open Annotated Concrete

/-- **Reading a tree keeps source order and neither loses nor repeats a comment.** A walk of the
tree comes to its end. But for some inserted tokens, what it passes is what the landmarks of the
concrete tree say, one by one and in order: interior nodes, leaves, and the trivia of each comment
block. The nodes of these landmarks are the nodes of the concrete tree in order, none of them below
a comment. -/
theorem walk_keeps_order {g : Grammar} {source : ByteArray} {c : Concrete} {t : Tree}
    (hc : c.RowsInOrder) (h : g.tree? source c = .ok t) :
    (t.walk false).ending = .finished ∧
      (c.landmarks g source).flatMap Landmark.nodes = c :: metAll g c.children ∧
      ∃ inserted : Fin t.size → Bool, (∀ i, inserted i = true → (t.node i).IsPlaceholder) ∧
        (c.landmarks g source).mapM (Landmark.passage? g source) =
          .ok ((t.without inserted (t.walk false).events).map t.passage) := by
  obtain ⟨span, below, hspan, hbelow, rfl⟩ := (tree?_eq_ok_iff g source).1 h
  obtain ⟨⟨lead, as⟩, hsiblings, rfl⟩ := Outcome.map_eq_ok_iff.1 hbelow
  have hreads := reads_of_siblings hsiblings
  obtain ⟨inserted, hplaceholder, hwalk⟩ := Tree.passages_walk (some g.language)
    (.branch c.label.type (g.role c.label.type) none span as)
  refine ⟨?_, nodes_landmarks g source c, inserted, hplaceholder, ?_⟩
  · rw [Tree.walk, Tree.walkRounds_toTree _ _ _ Nat.one_pos]
  · have hshow := hreads.landmarks_show (follows_none hc.children)
    rw [hreads.lead_eq_nil] at hshow
    rw [hwalk]
    exact Outcome.mapM_cons_eq_ok_iff.2 ⟨_, _, Landmark.passage?_root hspan, hshow, rfl⟩

/-- The walk of the small file keeps the order. -/
theorem walk_sample_keeps_order : sample.RowsInOrder ∧
    ∃ t, csharp.tree? sampleText.toUTF8 sample = .ok t ∧ (t.walk false).ending = .finished ∧
      ∃ inserted : Fin t.size → Bool,
        (sample.landmarks csharp sampleText.toUTF8).mapM
            (Landmark.passage? csharp sampleText.toUTF8) =
          .ok ((t.without inserted (t.walk false).events).map t.passage) := by
  obtain ⟨t, ht⟩ := Outcome.exists_eq_ok sample_isOk
  have hrows : sample.RowsInOrder := by decide
  obtain ⟨hending, -, inserted, -, hevents⟩ := walk_keeps_order hrows ht
  exact ⟨hrows, t, ht, hending, inserted, hevents⟩

end Grammar

end CommentScope
