import CommentScope.Proofs.CodeTree
import CommentScope.Proofs.Hosts
import CommentScope.Proofs.Scopes
import Mathlib.Data.List.Forall2

/-!
# Comments are attached to their hosts

Below each interior node of the tree that is read stands what has to be there (`Container.slots`),
and every token carries the comments that go to it and no other (`Grammar.comments_attached`).

The reader takes siblings gap by gap, and so do the slots: what is read of the siblings from some
position on fills the slots from that position on (`Annotated.Reads.slots`). The trivia that the
reader hands back, because they trail the leaf before those siblings, are the ones whose host is
that leaf. Containers are met in the order of the interior nodes, so the two are compared one by
one, first in the syntax (`Annotated.Reads.containers`) and then in the arena
(`Tree.forall₂_interior`).
-/

namespace CommentScope

/-- Whether trivia is that of a block. -/
def Block.HasTrivia (g : Grammar) (source : ByteArray) (b : Block) (x : Trivia) : Prop :=
  ∃ r, b.remark? g source = .ok r ∧ r.trivia = x

/-- Whether a node of an arena is what it has to be: it says what the leaf or the interior node in
its place says, or is an empty token at the start of a block or at the end; and it carries the
trivia of its blocks, each once and in order, and no other. -/
def Slot.Fits (g : Grammar) (source : ByteArray) : Slot → Node → Prop
  | .leaf _ c leading trailing, n => Arranged.entryOfLeaf? source c = .ok n.entry ∧
      List.Forall₂ (Block.HasTrivia g source) leading n.leading ∧
      List.Forall₂ (Block.HasTrivia g source) trailing n.trailing
  | .inner c, n => Arranged.entryOfInner? g source c = .ok n.entry ∧ n.leading = [] ∧
      n.trailing = []
  | .anchor b, n => n.type = Filler.anchor.type ∧ n.text = some "" ∧
      n.span.start = b.first.label.start ∧ n.span.stop = b.first.label.start ∧
      List.Forall₂ (Block.HasTrivia g source) [b] n.leading ∧ n.trailing = []
  | .endOfFile leading, n => n.type = Filler.endOfFile.type ∧ n.text = some "" ∧
      List.Forall₂ (Block.HasTrivia g source) leading n.leading ∧ n.trailing = []

namespace Container

/-- What the node of a container says of itself. -/
def entry? (g : Grammar) (source : ByteArray) (K : Container) : Except Span.Fault Entry :=
  if K.isRoot then Arranged.entryOfRoot? g K.node else Arranged.entryOfInner? g source K.node

/-- Whether a node of an arena is that of a container, with the children that it has to have. -/
def Holds (g : Grammar) (source : ByteArray) (t : Tree) (K : Container) (i : Fin t.size) : Prop :=
  K.entry? g source = .ok (t.node i).entry ∧
    List.Forall₂ (fun s j ↦ s.Fits g source (t.node j)) K.slots (t.below i)

end Container

namespace Arranged

mutual

/-- The containers in a piece of syntax, from the outermost to those in it. -/
def containers : Arranged → List Container
  | .comment _ | .leaf _ => []
  | .inner c below => ⟨c, false, below⟩ :: containersAll below

/-- The containers in pieces of syntax, one after the other. -/
def containersAll : List Arranged → List Container
  | [] => []
  | x :: xs => containers x ++ containersAll xs

end

theorem containersAll_append (xs ys : List Arranged) :
    containersAll (xs ++ ys) = containersAll xs ++ containersAll ys := by
  induction xs with
  | nil => rfl
  | cons x xs ih => rw [List.cons_append, containersAll, containersAll, ih, List.append_assoc]

theorem containersAll_comments (blocks : List Block) :
    containersAll (blocks.map .comment) = [] := by
  induction blocks with
  | nil => rfl
  | cons b blocks ih => rw [List.map_cons, containersAll, ih]; rfl

end Arranged

/-- The interior nodes of a concrete tree with what they hold, the root first. -/
def Concrete.containers (g : Grammar) (source : ByteArray) (c : Concrete) : List Container :=
  ⟨c, true, Arranged.ofRoot g source c⟩ :: Arranged.containersAll (Arranged.ofRoot g source c)

namespace Annotated

mutual

/-- The interior nodes of a piece of syntax with what is below them. -/
def branches : Annotated → List Annotated
  | .token .. | .inserted .. => []
  | .branch type role name span as => .branch type role name span as :: branchesAll as

/-- The interior nodes of pieces of syntax, in order. -/
def branchesAll : List Annotated → List Annotated
  | [] => []
  | a :: as => branches a ++ branchesAll as

end

theorem branchesAll_append (as bs : List Annotated) :
    branchesAll (as ++ bs) = branchesAll as ++ branchesAll bs := by
  induction as with
  | nil => rfl
  | cons a as ih => rw [List.cons_append, branchesAll, branchesAll, ih, List.append_assoc]

theorem branchesAll_anchors (rs : List Remark) : branchesAll (rs.map anchor) = [] := by
  induction rs with
  | nil => rfl
  | cons r rs ih => rw [List.map_cons, branchesAll, ih]; rfl

theorem branchesAll_closing (root : Option Span) (free : List Remark) :
    branchesAll (closing root free) = [] := by
  cases root with
  | none => exact branchesAll_anchors free
  | some s => rfl

/-! ### Slots of syntax -/

/-- Whether a piece of syntax is what has to be in a slot, wherever it is laid out. -/
def Fills (g : Grammar) (source : ByteArray) (s : Slot) (a : Annotated) : Prop :=
  ∀ parent i, s.Fits g source (a.head parent i)

open Outcome

variable {g : Grammar} {source : ByteArray}

/-- The remarks of a gap are those of its blocks, and are shared out like these. -/
theorem forall₂_of_shareOut {after : Option Int} {blocks : List Block}
    {trailing free : List Remark} (shares : shareOut g source after blocks = .ok (trailing, free)) :
    List.Forall₂ (fun b r ↦ b.remark? g source = .ok r) (blocks.filter (Block.startsOn after))
        trailing ∧
      List.Forall₂ (fun b r ↦ b.remark? g source = .ok r)
        (blocks.filter fun b ↦ !b.startsOn after) free := by
  obtain ⟨rs, hrs, rfl, rfl⟩ := shareOut_eq_ok_iff.1 shares
  have hall := mapM_eq_ok_iff.1 hrs
  have hstarts : ∀ (b : Block) (r : Remark), b.remark? g source = .ok r →
      b.startsOn after = startsOn after r := by
    intro b r hr
    rw [Block.startsOn, startsOn, startLine_of_remark? hr]
  constructor
  · refine List.rel_filter (fun b r hr ↦ ?_) hall
    show b.startsOn after = true ↔ startsOn after r = true
    rw [hstarts b r hr]
  · refine List.rel_filter (fun b r hr ↦ ?_) hall
    show (!b.startsOn after) = true ↔ (!startsOn after r) = true
    rw [hstarts b r hr]

theorem forall₂_trivia {blocks : List Block} {rs : List Remark}
    (h : List.Forall₂ (fun b r ↦ b.remark? g source = .ok r) blocks rs) :
    List.Forall₂ (Block.HasTrivia g source) blocks (rs.map Remark.trivia) := by
  rw [List.forall₂_map_right_iff]
  exact h.imp fun b r hr ↦ ⟨r, hr, rfl⟩

/-- Anchors fill the slots of their blocks. -/
theorem forall₂_anchors {blocks : List Block} {rs : List Remark}
    (h : List.Forall₂ (fun b r ↦ b.remark? g source = .ok r) blocks rs) :
    List.Forall₂ (Fills g source) (blocks.map .anchor) (rs.map anchor) := by
  rw [List.forall₂_map_left_iff, List.forall₂_map_right_iff]
  refine h.imp fun b r hr parent i ↦ ?_
  exact ⟨type_inserted .anchor, rfl, start_of_remark? hr, start_of_remark? hr,
    .cons ⟨r, hr, rfl⟩ .nil, rfl⟩

theorem fills_leaf {c : Concrete} {span : Span} {place : Nat} {leading trailing : List Block}
    {lead trail : List Trivia} (hspan : Span.between? c.label.start c.label.stop = .ok span)
    (hlead : List.Forall₂ (Block.HasTrivia g source) leading lead)
    (htrail : List.Forall₂ (Block.HasTrivia g source) trailing trail) :
    Fills g source (.leaf place c leading trailing)
      (.token (leafType c) (leafText source c) span lead trail) :=
  fun _ _ ↦ ⟨Arranged.entryOfLeaf?_eq_ok hspan, hlead, htrail⟩

theorem fills_inner {c : Concrete} {span : Span} {below : List Annotated}
    (hspan : Span.between? c.label.start c.label.stop = .ok span) :
    Fills g source (.inner c)
      (.branch c.label.type (g.role c.label.type) (g.declaredName? source c) span below) :=
  fun _ _ ↦ ⟨Arranged.entryOfInner?_eq_ok hspan, rfl, rfl⟩

theorem fills_endOfFile {leading : List Block} {rs : List Remark} (stop : Span)
    (h : List.Forall₂ (fun b r ↦ b.remark? g source = .ok r) leading rs) :
    Fills g source (.endOfFile leading) (endOfFile stop (rs.map Remark.trivia)) :=
  fun _ _ ↦ ⟨type_inserted .endOfFile, rfl, forall₂_trivia h, rfl⟩

/-- **Siblings fill the slots of their container.** The siblings from some position on are read as
what has to be in their slots, and the trivia that trail the node before them are those of the
blocks that go there. -/
theorem Reads.slots {root : Option Span} {after : Option Int} {cs : List Concrete}
    {lead : List Trivia} {as : List Annotated} (h : Reads g source root after cs lead as)
    {K : Container} {n : Nat} (hroot : K.isRoot = root.isSome)
    (hcs : K.Resumes n (Arranged.ofSiblings g source cs)) (hafter : K.rowBefore n = after) :
    List.Forall₂ (Fills g source) (K.slotsFrom n) as ∧
      ∀ p, n = p + 1 → List.Forall₂ (Block.HasTrivia g source) (K.hosted (.behind p)) lead := by
  induction h generalizing n with
  | @last root after cs blocks trailing free gap shares =>
    subst hafter
    obtain ⟨htrailing, hfree⟩ := forall₂_of_shareOut shares
    rw [Arranged.ofSiblings_of_leading_nil gap, ← List.append_nil (blocks.map _)] at hcs
    have hgap : K.IsGap n blocks [] := ⟨hcs, fun _ _ h ↦ by cases h⟩
    refine ⟨?_, fun p hp ↦ hgap.hosted_behind hp ▸ forall₂_trivia htrailing⟩
    cases root with
    | none =>
      rw [hgap.slotsFrom_end hroot]
      exact forall₂_anchors hfree
    | some s =>
      rw [hgap.slotsFrom_root hroot]
      exact .cons (fills_endOfFile s hfree) .nil
  | @leaf root after cs rest c blocks trailing free span lead as gap shares place isLeaf more ih =>
    subst hafter
    obtain ⟨htrailing, hfree⟩ := forall₂_of_shareOut shares
    rw [Arranged.ofSiblings_of_leading_leaf gap isLeaf] at hcs
    have hgap : K.IsGap n blocks (.leaf c :: Arranged.ofSiblings g source rest) :=
      ⟨hcs, fun _ _ h ↦ by cases h⟩
    obtain ⟨hmore, hlead⟩ := ih hroot hgap.resumes hgap.rowBefore_leaf
    refine ⟨?_, fun p hp ↦ hgap.hosted_behind hp ▸ forall₂_trivia htrailing⟩
    rw [hgap.slotsFrom_leaf]
    exact .cons (fills_leaf place (forall₂_trivia hfree) (hlead _ rfl)) hmore
  | @inner root after cs rest c blocks trailing free span leadBelow lead below as gap shares place
      isInner hbelow hmore ihb ihm =>
    subst hafter
    obtain ⟨htrailing, hfree⟩ := forall₂_of_shareOut shares
    rw [Arranged.ofSiblings_of_leading_inner gap isInner] at hcs
    have hgap : K.IsGap n blocks (.inner c (Arranged.ofSiblings g source (inside g c rest)) ::
        Arranged.ofSiblings g source (behind g c rest)) :=
      ⟨hcs, fun _ _ h ↦ by cases h⟩
    obtain ⟨hmore, -⟩ := ihm hroot hgap.resumes hgap.rowBefore_inner
    refine ⟨?_, fun p hp ↦ hgap.hosted_behind hp ▸ forall₂_trivia htrailing⟩
    rw [hgap.slotsFrom_inner]
    exact List.rel_append (forall₂_anchors hfree) (.cons (fills_inner place) hmore)

/-- Whether an interior node is that of a container, with what has to be below it. -/
def IsOf (g : Grammar) (source : ByteArray) (K : Container) (a : Annotated) : Prop :=
  (∀ parent i, K.entry? g source = .ok (a.head parent i).entry) ∧
    List.Forall₂ (Fills g source) K.slots a.children

/-- **The interior nodes of what is read are those of the containers**, each with what has to be
below it. -/
theorem Reads.containers {root : Option Span} {after : Option Int} {cs : List Concrete}
    {lead : List Trivia} {as : List Annotated} (h : Reads g source root after cs lead as) :
    List.Forall₂ (IsOf g source)
      (Arranged.containersAll (Arranged.ofSiblings g source cs)) (branchesAll as) := by
  induction h with
  | @last root after cs blocks trailing free gap shares =>
    rw [Arranged.ofSiblings_of_leading_nil gap, Arranged.containersAll_comments,
      branchesAll_closing]
    exact .nil
  | @leaf root after cs rest c blocks trailing free span lead as gap shares place isLeaf more ih =>
    rw [Arranged.ofSiblings_of_leading_leaf gap isLeaf, Arranged.containersAll_append,
      Arranged.containersAll_comments]
    exact ih
  | @inner root after cs rest c blocks trailing free span leadBelow lead below as gap shares place
      isInner hbelow hmore ihb ihm =>
    rw [Arranged.ofSiblings_of_leading_inner gap isInner, Arranged.containersAll_append,
      Arranged.containersAll_comments, branchesAll_append, branchesAll_anchors]
    have hslots := (hbelow.slots
      (K := ⟨c, false, Arranged.ofSiblings g source (inside g c rest)⟩) rfl
      (Container.resumes_zero _) rfl).1
    exact .cons ⟨fun _ _ ↦ Arranged.entryOfInner?_eq_ok place, hslots⟩ (List.rel_append ihb ihm)

theorem length_branchesAll (as : List Annotated) :
    (branchesAll as).length = (innersAll as).length := by
  induction as using forest_induction with
  | nil => rfl
  | cons a as ihc ih =>
    have hown : (branches a).length = (inners a).length := by
      cases a with
      | branch type role name span below => exact congrArg Nat.succ ihc
      | _ => rfl
    rw [branchesAll, innersAll, List.length_append, List.length_append, hown, ih]

end Annotated

/-! ### Slots of an arena -/

namespace Tree

open Annotated

variable {t : Tree} {parent : Option Nat} {i : Nat} {a : Annotated} {as : List Annotated}

/-- Siblings that lie in an arena are the nodes at their starts. -/
theorem forall₂_lies (h : t.Lies parent i as) {is : List (Fin t.size)}
    (his : is.map Fin.val = starts i as) :
    List.Forall₂ (fun a j ↦ t.node j = a.head parent j) as is := by
  induction as generalizing i is with
  | nil =>
    rw [List.map_eq_nil_iff.1 his]
    exact .nil
  | cons a as ih =>
    obtain ⟨j, js, rfl, rfl, hjs⟩ := List.map_eq_cons_iff.1 his
    exact .cons h.node (ih h.behind hjs)

/-- A piece of syntax lies in the arena without the siblings behind it. -/
theorem Lies.alone (h : t.Lies parent i (a :: as)) : t.Lies parent i [a] := by
  refine List.IsPrefix.trans ?_ h
  rw [layoutAll, layoutAll, layoutAll, List.append_nil]
  exact List.prefix_append _ _

/-- **Interior nodes of syntax are found under their ranks.** -/
theorem exists_interior (h : t.Lies parent i as) {k : Nat} (ha : (branchesAll as)[k]? = some a) :
    ∃ j : Fin t.size, t.interior[t.rankOf i + k]? = some j ∧
      (∃ p, t.node j = a.head p j) ∧ t.Lies (some j) (j + 1) a.children := by
  induction as using forest_induction generalizing parent i k with
  | nil => cases ha
  | cons b as ihc ih =>
    rw [branchesAll, List.getElem?_append] at ha
    split at ha
    · cases b with
      | token | inserted => cases ha
      | branch type role name span below =>
        cases k with
        | zero =>
          cases ha
          have htoken : (t.node ⟨i, h.lt⟩).isToken = false := by rw [h.node]; rfl
          exact ⟨⟨i, h.lt⟩, interior_rankOf _ htoken, ⟨parent, h.node⟩, h.below⟩
        | succ k =>
          obtain ⟨j, hj, hnode⟩ := ihc h.below ha
          rw [rankOf_succ h rfl, Nat.add_assoc, Nat.add_comm 1 k] at hj
          exact ⟨j, hj, hnode⟩
    · rename_i hk
      obtain ⟨k, rfl⟩ : ∃ m, k = (branches b).length + m :=
        Nat.exists_eq_add_of_le (Nat.not_lt.1 hk)
      rw [Nat.add_sub_cancel_left] at ha
      obtain ⟨j, hj, hnode⟩ := ih h.behind ha
      have hrank := rankOf_add h.alone
      rw [← length_branchesAll, branchesAll, branchesAll, List.append_nil, sizeAll, sizeAll,
        Nat.add_zero] at hrank
      rw [hrank, Nat.add_assoc] at hj
      exact ⟨j, hj, hnode⟩

/-- **The interior nodes of an arena are those of the syntax**, with the same nodes below them. -/
theorem forall₂_interior (language : Option Language) (root : Annotated) :
    let t := root.toTree language
    List.Forall₂ (fun a i ↦ (∃ p, t.node i = a.head p i) ∧
      List.Forall₂ (fun b j ↦ t.node j = b.head (some i) j) a.children (t.below i))
      root.branches t.interior := by
  intro t
  have hlies := lies_toTree language root
  have hlength : root.branches.length = t.interior.length := by
    have hentries := congrArg List.length (entries_interior language root)
    have hbranches := length_branchesAll [root]
    rw [branchesAll, branchesAll, innersAll, innersAll, List.append_nil, List.append_nil]
      at hbranches
    rw [hbranches, ← hentries, List.length_map]
  refine List.forall₂_of_length_eq_of_get hlength fun k hk hk' ↦ ?_
  have ha : (branchesAll [root])[k]? = some (root.branches.get ⟨k, hk⟩) := by
    rw [branchesAll, branchesAll, List.append_nil]
    exact List.getElem?_eq_getElem hk
  obtain ⟨j, hj, hnode, hbelow⟩ := exists_interior hlies ha
  have hrank : t.rankOf 0 = 0 := rfl
  rw [hrank, Nat.zero_add, List.getElem?_eq_getElem hk'] at hj
  obtain rfl : t.interior.get ⟨k, hk'⟩ = j := Option.some.inj hj
  refine ⟨hnode, forall₂_lies hbelow (refs_injective ?_)⟩
  obtain ⟨p, hp⟩ := hnode
  rw [refs_below, hp, children_head]

end Tree

/-! ### Trees of concrete trees -/

/-- Lists that agree with a third one member by member agree with each other. -/
theorem forall₂_through {α β γ : Type} {R : α → β → Prop} {S : β → γ → Prop} {T : α → γ → Prop}
    (hT : ∀ a b c, R a b → S b c → T a c) {as : List α} {bs : List β} {cs : List γ}
    (h : List.Forall₂ R as bs) (h' : List.Forall₂ S bs cs) : List.Forall₂ T as cs := by
  induction h generalizing cs with
  | nil =>
    cases h'
    exact .nil
  | cons hab _ ih =>
    cases h' with
    | cons hbc hbcs => exact .cons (hT _ _ _ hab hbc) (ih hbcs)

namespace Grammar

open Annotated Concrete

variable {g : Grammar} {source : ByteArray} {c : Concrete} {t : Tree}

/-- The interior nodes of a tree have below them what has to be in the slots of the containers. -/
theorem forall₂_holds (h : g.tree? source c = .ok t) :
    List.Forall₂ (fun K i ↦ K.Holds g source t i) (c.containers g source) t.interior := by
  obtain ⟨span, below, hspan, hbelow, rfl⟩ := (tree?_eq_ok_iff g source).1 h
  obtain ⟨⟨lead, as⟩, hsiblings, rfl⟩ := Outcome.map_eq_ok_iff.1 hbelow
  have hreads := reads_of_siblings hsiblings
  have hslots := (hreads.slots (K := ⟨c, true, Arranged.ofRoot g source c⟩) rfl
    (Container.resumes_zero _) rfl).1
  have hroot : IsOf g source ⟨c, true, Arranged.ofRoot g source c⟩
      (.branch c.label.type (g.role c.label.type) none span as) :=
    ⟨fun _ _ ↦ Arranged.entryOfRoot?_eq_ok hspan, hslots⟩
  refine forall₂_through ?_ (.cons hroot hreads.containers) (Tree.forall₂_interior _ _)
  rintro K a i ⟨hentry, hfills⟩ ⟨⟨p, hp⟩, hnodes⟩
  refine ⟨hp ▸ hentry p i, forall₂_through (fun s b j hs hb ↦ ?_) hfills hnodes⟩
  rw [hb]
  exact hs _ _

/-- **Every comment is attached to its host.** The interior nodes of the tree are those of the
concrete tree, from the root on, and what is below each is what has to be there: the tokens of its
leaves, its interior nodes, empty tokens for blocks that stand alone, and at the end of the root the
end-of-file token. A token carries the blocks that go to it, each once and in their order, and no
other trivia; and for every block there is a token that carries it as its host says. -/
theorem comments_attached (h : g.tree? source c = .ok t) :
    List.Forall₂ (fun K i ↦ K.Holds g source t i) (c.containers g source) t.interior ∧
      ∀ K ∈ c.containers g source, ∀ k b, K.siblings[k]? = some (.comment b) →
        ∃ s ∈ K.slots, s.Carries (K.host k b) b :=
  ⟨forall₂_holds h, fun _ _ _ _ hk ↦ Container.exists_slot hk⟩

/-- In the small file both comments stand alone, before and behind the class. -/
theorem comments_attached_sample : ∃ t, csharp.tree? sampleText.toUTF8 sample = .ok t ∧
    List.Forall₂ (fun K i ↦ K.Holds csharp sampleText.toUTF8 t i)
      (sample.containers csharp sampleText.toUTF8) t.interior ∧
    t.interior.map (fun i ↦ (t.below i).length) = [2, 6, 3, 2] := by
  obtain ⟨t, ht⟩ := Outcome.exists_eq_ok sample_isOk
  obtain ⟨hholds, -⟩ := comments_attached ht
  have hlengths : (sample.containers csharp sampleText.toUTF8).map (fun K ↦ K.slots.length) =
      t.interior.map fun i ↦ (t.below i).length := by
    rw [← List.forall₂_eq_eq_eq, List.forall₂_map_left_iff, List.forall₂_map_right_iff]
    exact hholds.imp fun K i hK ↦ hK.2.length_eq
  refine ⟨t, ht, hholds, hlengths.symm.trans ?_⟩
  decide +kernel

end Grammar

end CommentScope
