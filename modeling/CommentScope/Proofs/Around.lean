import CommentScope.Proofs.SourceOrder

/-!
# What is around a comment

Each comment block of a concrete tree stands in a chain of interior nodes, up to the root. The
reader attaches the block to a token, in one of several places; whichever it is, the token stands
in the same chain (`Annotated.Reads.notes`). A node of the chain is known by its rank, the number
of interior nodes before it: comments and leaves do not count, so that ranks do not depend on what
was attached where.
-/

namespace CommentScope

/-- An interior node around something: the number of interior nodes before it, and its role. -/
structure Around where
  rank : Nat
  role : Role

/-- Something in a tree and the interior nodes around it, from the innermost to the root. -/
structure Within (α : Type) where
  it : α
  around : List Around

/-- The block that a landmark is, if it is one. -/
def Landmark.block? : Landmark → Option Block
  | .comment b => some b
  | .root _ | .inner _ | .leaf _ => none

/-- Whether a landmark is an interior node. -/
def Landmark.isInterior : Landmark → Bool
  | .root _ | .inner _ => true
  | .leaf _ | .comment _ => false

/-! ### Concrete syntax -/

namespace Arranged

/-- The interior nodes among pieces of syntax. -/
def innersAll (xs : List Arranged) : List Landmark := (landmarksAll xs).filter Landmark.isInterior

variable (g : Grammar)

mutual

/-- The comment blocks of a piece of syntax, each within what is around it. -/
def blocks (around : List Around) (rank : Nat) : Arranged → List (Within Block)
  | .comment b => [⟨b, around⟩]
  | .leaf _ => []
  | .inner c below => blocksAll (⟨rank, g.role c.label.type⟩ :: around) (rank + 1) below

/-- The comment blocks of pieces of syntax, in order. -/
def blocksAll (around : List Around) (rank : Nat) : List Arranged → List (Within Block)
  | [] => []
  | x :: xs => blocks around rank x ++ blocksAll around (rank + (innersAll [x]).length) xs

end

variable {g} {around : List Around} {rank : Nat}

theorem innersAll_append (xs ys : List Arranged) :
    innersAll (xs ++ ys) = innersAll xs ++ innersAll ys := by
  rw [innersAll, landmarksAll_append, List.filter_append]
  rfl

theorem innersAll_inner (c : Concrete) (below xs : List Arranged) :
    innersAll (.inner c below :: xs) = .inner c :: (innersAll below ++ innersAll xs) := by
  rw [innersAll, landmarksAll, landmarks, List.filter_append]
  rfl

theorem innersAll_comments (bs : List Block) : innersAll (bs.map .comment) = [] := by
  rw [innersAll, landmarksAll_comments, List.filter_eq_nil_iff]
  intro x hx
  obtain ⟨b, -, rfl⟩ := List.mem_map.1 hx
  exact Bool.false_ne_true

theorem innersAll_prepend (source : ByteArray) (c : Concrete) (xs : List Arranged) :
    innersAll (prepend g source c xs) = innersAll xs := by
  unfold prepend
  split
  · split <;> rfl
  · rfl

section

variable (source : ByteArray) {c : Concrete} (rest : List Concrete)

theorem innersAll_ofSiblings_comment (hc : g.isComment c = true) :
    innersAll (ofSiblings g source (c :: rest)) = innersAll (ofSiblings g source rest) := by
  rw [ofSiblings, if_pos hc, innersAll_prepend]

theorem innersAll_ofSiblings_leaf (hc : g.isComment c = false) (hl : c.isLeaf = true) :
    innersAll (ofSiblings g source (c :: rest)) = innersAll (ofSiblings g source rest) := by
  rw [ofSiblings, if_neg (by simp [hc]), if_pos hl]
  rfl

theorem innersAll_ofSiblings_inner (hc : g.isComment c = false) (hl : c.isLeaf = false) :
    innersAll (ofSiblings g source (c :: rest)) =
      .inner c :: (innersAll (ofSiblings g source (Annotated.inside g c rest)) ++
        innersAll (ofSiblings g source (Annotated.behind g c rest))) := by
  have hfront : Block.leading g source (c :: rest) = ([], c :: rest) := by
    rw [Block.leading, if_neg (by simp [hc])]
  rw [ofSiblings_of_leading_inner hfront hl, List.map_nil, List.nil_append, innersAll_inner]

end

theorem blocksAll_append (xs ys : List Arranged) :
    blocksAll g around rank (xs ++ ys) =
      blocksAll g around rank xs ++ blocksAll g around (rank + (innersAll xs).length) ys := by
  induction xs generalizing rank with
  | nil => rfl
  | cons x xs ih =>
    have hlen : (innersAll (x :: xs)).length = (innersAll [x]).length + (innersAll xs).length := by
      rw [← List.singleton_append, innersAll_append, List.length_append]
    rw [List.cons_append, blocksAll, blocksAll, ih, hlen, List.append_assoc, Nat.add_assoc]

theorem blocksAll_comments (bs : List Block) :
    blocksAll g around rank (bs.map .comment) = bs.map (⟨·, around⟩) := by
  induction bs generalizing rank with
  | nil => rfl
  | cons b bs ih => rw [List.map_cons, blocksAll, ih]; rfl

mutual

/-- The nodes around a block are those that were around the syntax, and interior nodes in it. -/
theorem rank_lt_of_mem_blocks {w : Within Block} {a : Around} (ha : a ∈ w.around) :
    ∀ (x : Arranged) {around : List Around} {rank : Nat}, w ∈ blocks g around rank x →
      a ∈ around ∨ a.rank < rank + (innersAll [x]).length
  | .comment b, _, _, hw => by
    cases List.mem_singleton.1 hw
    exact .inl ha
  | .leaf _, _, _, hw => by simp [blocks] at hw
  | .inner c below, around, rank, hw => by
    rw [innersAll_inner, List.length_cons, List.length_append]
    rcases rank_lt_of_mem_blocksAll ha below hw with hmem | hlt
    · rcases List.mem_cons.1 hmem with rfl | hmem
      · exact .inr (by dsimp only; omega)
      · exact .inl hmem
    · exact .inr (by omega)

theorem rank_lt_of_mem_blocksAll {w : Within Block} {a : Around} (ha : a ∈ w.around) :
    ∀ (xs : List Arranged) {around : List Around} {rank : Nat}, w ∈ blocksAll g around rank xs →
      a ∈ around ∨ a.rank < rank + (innersAll xs).length
  | [], _, _, hw => by simp [blocksAll] at hw
  | x :: xs, around, rank, hw => by
    have hlen : (innersAll (x :: xs)).length = (innersAll [x]).length + (innersAll xs).length := by
      rw [← List.singleton_append, innersAll_append, List.length_append]
    rw [blocksAll, List.mem_append] at hw
    rw [hlen]
    rcases hw with hw | hw
    · rcases rank_lt_of_mem_blocks ha x hw with hmem | hlt
      · exact .inl hmem
      · exact .inr (by omega)
    · rcases rank_lt_of_mem_blocksAll ha xs hw with hmem | hlt
      · exact .inl hmem
      · exact .inr (by omega)

end

mutual

/-- The blocks of a piece of syntax are those among its landmarks. -/
theorem map_it_blocks : ∀ (x : Arranged) (around : List Around) (rank : Nat),
    (blocks g around rank x).map Within.it = (landmarks x).filterMap Landmark.block?
  | .comment _, _, _ => rfl
  | .leaf _, _, _ => rfl
  | .inner _ below, _, _ => map_it_blocksAll below _ _

theorem map_it_blocksAll : ∀ (xs : List Arranged) (around : List Around) (rank : Nat),
    (blocksAll g around rank xs).map Within.it = (landmarksAll xs).filterMap Landmark.block?
  | [], _, _ => rfl
  | x :: xs, around, rank => by
    rw [blocksAll, landmarksAll, List.map_append, List.filterMap_append, map_it_blocks x,
      map_it_blocksAll xs]

end

end Arranged

/-- The comment blocks of a concrete tree. -/
def Concrete.blocks (g : Grammar) (source : ByteArray) (c : Concrete) : List (Within Block) :=
  Arranged.blocksAll g [⟨0, g.role c.label.type⟩] 1 (Arranged.ofRoot g source c)

/-- The comment blocks of a concrete tree are met in it. -/
theorem Concrete.comment_mem_landmarks {g : Grammar} {source : ByteArray} {c : Concrete}
    {b : Within Block} (hb : b ∈ c.blocks g source) : .comment b.it ∈ c.landmarks g source := by
  have hmap := Arranged.map_it_blocksAll (g := g) (Arranged.ofRoot g source c)
    [⟨0, g.role c.label.type⟩] 1
  have hmem := List.mem_map_of_mem (f := Within.it) hb
  rw [blocks, hmap] at hmem
  obtain ⟨l, hl, hblock⟩ := List.mem_filterMap.1 hmem
  cases l <;> cases hblock
  exact comment_mem_landmarks_iff.2 hl

/-- The trivia of a block, within what is around the block. -/
def Within.trivia? (g : Grammar) (source : ByteArray) (b : Within Block) :
    Except Span.Fault (Within Trivia) :=
  (b.it.remark? g source).map fun r ↦ ⟨r.trivia, b.around⟩

/-! ### Syntax with comments attached -/

namespace Annotated

mutual

/-- The entries of the interior nodes of a piece of syntax. -/
def inners : Annotated → List Entry
  | .token .. | .inserted .. => []
  | .branch type role name span as => ⟨type, role, name, span, none⟩ :: innersAll as

/-- The entries of the interior nodes of pieces of syntax, in order. -/
def innersAll : List Annotated → List Entry
  | [] => []
  | a :: as => inners a ++ innersAll as

end

mutual

/-- The trivia of a piece of syntax, each within what is around its token. -/
def notes (around : List Around) (rank : Nat) : Annotated → List (Within Trivia)
  | .token _ _ _ leading trailing => (leading ++ trailing).map (⟨·, around⟩)
  | .inserted _ _ _ leading => leading.map (⟨·, around⟩)
  | .branch _ role _ _ as => notesAll (⟨rank, role⟩ :: around) (rank + 1) as

/-- The trivia of pieces of syntax, in order. -/
def notesAll (around : List Around) (rank : Nat) : List Annotated → List (Within Trivia)
  | [] => []
  | a :: as => notes around rank a ++ notesAll around (rank + a.inners.length) as

end

variable {around : List Around} {rank : Nat}

theorem innersAll_append (as bs : List Annotated) :
    innersAll (as ++ bs) = innersAll as ++ innersAll bs := by
  induction as with
  | nil => rfl
  | cons a as ih => rw [List.cons_append, innersAll, innersAll, ih, List.append_assoc]

theorem innersAll_anchors (rs : List Remark) : innersAll (rs.map anchor) = [] := by
  induction rs with
  | nil => rfl
  | cons r rs ih => rw [List.map_cons, innersAll, ih]; rfl

theorem innersAll_closing (root : Option Span) (free : List Remark) :
    innersAll (closing root free) = [] := by
  cases root with
  | none => exact innersAll_anchors free
  | some s => rfl

theorem notesAll_append (as bs : List Annotated) :
    notesAll around rank (as ++ bs) =
      notesAll around rank as ++ notesAll around (rank + (innersAll as).length) bs := by
  induction as generalizing rank with
  | nil => rfl
  | cons a as ih =>
    rw [List.cons_append, notesAll, notesAll, ih, innersAll, List.length_append, List.append_assoc,
      Nat.add_assoc]

/-- Remarks, within what is around them. -/
def remarksIn (around : List Around) (rs : List Remark) : List (Within Trivia) :=
  rs.map fun r ↦ ⟨r.trivia, around⟩

theorem notesAll_anchors (rs : List Remark) :
    notesAll around rank (rs.map anchor) = remarksIn around rs := by
  induction rs generalizing rank with
  | nil => rfl
  | cons r rs ih => rw [List.map_cons, notesAll, ih]; rfl

theorem notesAll_closing (root : Option Span) (free : List Remark) :
    notesAll around rank (closing root free) = remarksIn around free := by
  cases root with
  | none => exact notesAll_anchors free
  | some s =>
    show (free.map Remark.trivia).map (Within.mk · around) ++ [] = _
    rw [List.append_nil, List.map_map]
    rfl

/-! ### Reading keeps what is around comments -/

/-- Whether two lists have the same members, and are the same list if a condition holds. -/
def Agree {α : Type} (P : Prop) (l m : List α) : Prop := l.Perm m ∧ (P → l = m)

namespace Agree

variable {α : Type} {P Q : Prop} {l l' m m' : List α}

theorem append (h : Agree P l m) (h' : Agree P l' m') : Agree P (l ++ l') (m ++ m') :=
  ⟨h.1.append h'.1, fun hP ↦ by rw [h.2 hP, h'.2 hP]⟩

theorem mono (h : Agree P l m) (hQ : Q → P) : Agree Q l m :=
  ⟨h.1, fun hq ↦ h.2 (hQ hq)⟩

theorem map {β : Type} (h : Agree P l m) (f : α → β) : Agree P (l.map f) (m.map f) :=
  ⟨h.1.map f, fun hP ↦ by rw [h.2 hP]⟩

end Agree

open Outcome

variable {g : Grammar} {source : ByteArray}

/-- The remarks of a gap and how they are shared out. -/
theorem agree_of_shareOut {after : Option Int} {cs rest : List Concrete} {blocks : List Block}
    {trailing free : List Remark} (gap : Block.leading g source cs = (blocks, rest))
    (shares : shareOut g source after blocks = .ok (trailing, free)) :
    ∃ rs, blocks.mapM (Block.remark? g source) = .ok rs ∧
      Agree (Follows after cs) rs (trailing ++ free) := by
  obtain ⟨rs, hrs, htrailing, hfree⟩ := shareOut_eq_ok_iff.1 shares
  refine ⟨rs, hrs, ?_, fun hcs ↦ ?_⟩
  · rw [htrailing, hfree]
    exact (List.filter_append_perm (startsOn after) rs).symm
  · exact Except.ok.inj (hrs.symm.trans (remarks_of_shareOut gap shares hcs))

theorem trivia?_of_remarks {blocks : List Block} {rs : List Remark} (around : List Around)
    (h : blocks.mapM (Block.remark? g source) = .ok rs) :
    (blocks.map (Within.mk · around)).mapM (Within.trivia? g source) =
      .ok (remarksIn around rs) := by
  induction blocks generalizing rs with
  | nil => cases h; rfl
  | cons b blocks ih =>
    obtain ⟨r, rest, hr, hrest, rfl⟩ := mapM_cons_eq_ok_iff.1 h
    exact mapM_cons_eq_ok_iff.2 ⟨_, _, map_eq_ok_iff.2 ⟨r, hr, rfl⟩, ih hrest, rfl⟩

/-- **Reading keeps the interior nodes**, their order and what they say. -/
theorem Reads.inners {root : Option Span} {after : Option Int} {cs : List Concrete}
    {lead : List Trivia} {as : List Annotated} (h : Reads g source root after cs lead as) :
    (Arranged.innersAll (Arranged.ofSiblings g source cs)).mapM (Landmark.passage? g source) =
      .ok ((innersAll as).map .node) := by
  induction h with
  | @last root after cs blocks trailing free gap shares =>
    rw [Arranged.ofSiblings_of_leading_nil gap, Arranged.innersAll_comments, innersAll_closing]
    rfl
  | @leaf root after cs rest c blocks trailing free span lead as gap shares place isLeaf more ih =>
    rw [Arranged.ofSiblings_of_leading_leaf gap isLeaf, Arranged.innersAll_append,
      Arranged.innersAll_comments]
    exact ih
  | @inner root after cs rest c blocks trailing free span leadBelow lead below as gap shares place
      isInner hbelow hmore ihb ihm =>
    rw [Arranged.ofSiblings_of_leading_inner gap isInner, Arranged.innersAll_append,
      Arranged.innersAll_comments, List.nil_append, Arranged.innersAll_inner, innersAll_append,
      innersAll_anchors, List.nil_append, innersAll, Annotated.inners]
    refine mapM_cons_eq_ok_iff.2 ⟨_, _, Landmark.passage?_inner place,
      mapM_append_eq_ok_iff.2 ⟨_, _, ihb, ihm, rfl⟩, ?_⟩
    simp

/-- Reading keeps the number of interior nodes. -/
theorem Reads.length_inners {root : Option Span} {after : Option Int} {cs : List Concrete}
    {lead : List Trivia} {as : List Annotated} (h : Reads g source root after cs lead as) :
    (Arranged.innersAll (Arranged.ofSiblings g source cs)).length = (innersAll as).length := by
  have hlen := length_of_mapM_eq_ok h.inners
  rw [List.length_map] at hlen
  exact hlen.symm

/-- **Reading keeps what is around comments.** The trivia of the blocks are those that trail the
leaf before and those of the pieces of syntax, each in the chain of interior nodes in which its
block stands; they come in the order of the blocks if the rows of the siblings are in order. -/
theorem Reads.notes {root : Option Span} {after : Option Int} {cs : List Concrete}
    {lead : List Trivia} {as : List Annotated} (h : Reads g source root after cs lead as)
    (around : List Around) (rank : Nat) :
    ∃ ws, (Arranged.blocksAll g around rank (Arranged.ofSiblings g source cs)).mapM
        (Within.trivia? g source) = .ok ws ∧
      Agree (Follows after cs) ws (lead.map (Within.mk · around) ++ notesAll around rank as) := by
  have hmap : ∀ (around : List Around) (rs : List Remark),
      (rs.map Remark.trivia).map (Within.mk · around) = remarksIn around rs := by
    intro around rs
    rw [List.map_map]
    rfl
  have hsplit : ∀ (around : List Around) (trailing free : List Remark),
      remarksIn around (trailing ++ free) = remarksIn around trailing ++ remarksIn around free := by
    intro around trailing free
    exact List.map_append
  induction h generalizing around rank with
  | @last root after cs blocks trailing free gap shares =>
    obtain ⟨rs, hrs, hagree⟩ := agree_of_shareOut gap shares
    refine ⟨remarksIn around rs, ?_, ?_⟩
    · rw [Arranged.ofSiblings_of_leading_nil gap, Arranged.blocksAll_comments]
      exact trivia?_of_remarks around hrs
    · rw [notesAll_closing, hmap, ← hsplit]
      exact hagree.map _
  | @leaf root after cs rest c blocks trailing free span lead as gap shares place isLeaf more ih =>
    obtain ⟨rs, hrs, hagree⟩ := agree_of_shareOut gap shares
    obtain ⟨ws, hws, hrest⟩ := ih around rank
    refine ⟨remarksIn around rs ++ ws, ?_, ?_⟩
    · rw [Arranged.ofSiblings_of_leading_leaf gap isLeaf, Arranged.blocksAll_append,
        Arranged.blocksAll_comments, Arranged.innersAll_comments]
      exact mapM_append_eq_ok_iff.2 ⟨_, _, trivia?_of_remarks around hrs, hws, rfl⟩
    · have hboth := (hagree.map fun r ↦ Within.mk r.trivia around).append
        (hrest.mono fun hcs : Follows after cs ↦ hcs.leaf gap)
      rw [notesAll, Annotated.notes, List.map_append, hmap, hmap]
      simpa [remarksIn, Annotated.inners] using hboth
  | @inner root after cs rest c blocks trailing free span leadBelow lead below as gap shares place
      isInner hbelow hmore ihb ihm =>
    obtain ⟨rs, hrs, hagree⟩ := agree_of_shareOut gap shares
    obtain ⟨ws, hws, hin⟩ := ihb (⟨rank, g.role c.label.type⟩ :: around) (rank + 1)
    obtain ⟨us, hus, hbehind⟩ := ihm around (rank + ((innersAll below).length + 1))
    refine ⟨remarksIn around rs ++ (ws ++ us), ?_, ?_⟩
    · rw [Arranged.ofSiblings_of_leading_inner gap isInner, Arranged.blocksAll_append,
        Arranged.blocksAll_comments, Arranged.innersAll_comments]
      refine mapM_append_eq_ok_iff.2 ⟨_, _, trivia?_of_remarks around hrs, ?_, rfl⟩
      refine mapM_append_eq_ok_iff.2 ⟨_, _, hws, ?_, rfl⟩
      rw [Arranged.innersAll_inner, List.length_cons, List.length_append, hbelow.length_inners]
      exact hus
    · rw [hbelow.lead_eq_nil] at hin
      rw [hmore.lead_eq_nil] at hbehind
      have hboth := (hagree.map fun r ↦ Within.mk r.trivia around).append
        ((hin.mono fun hcs : Follows after cs ↦ hcs.inside gap).append
          (hbehind.mono fun hcs : Follows after cs ↦ hcs.behind gap))
      rw [notesAll_append, notesAll_anchors, innersAll_anchors, notesAll, Annotated.notes, hmap]
      simpa [remarksIn, Annotated.inners] using hboth

end Annotated

end CommentScope
