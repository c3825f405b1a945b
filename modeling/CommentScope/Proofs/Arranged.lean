import CommentScope.Annotated

/-!
# Concrete syntax, arranged

What a concrete tree says when its adopting nodes hold what they adopt and its comments are joined
to blocks, written down without any attachment of comments to tokens. Reading a tree is compared
with this arrangement: its landmarks in source order, the code in it, the nodes around each block.

`ofSiblings` works from the left and merges a line of documentation into the block behind it. The
reader gathers blocks from the front instead; `ofSiblings_eq_leading` says that both find the same.
-/

namespace CommentScope

/-- What a node says of itself, apart from its place in a tree and from its comments. Tokens have a
text, interior nodes have none. -/
structure Entry where
  type : String
  role : Role
  name : Option String
  span : Span
  text : Option String
  deriving DecidableEq

/-- What a node of an arena says of itself. -/
def Node.entry (n : Node) : Entry := ⟨n.type, n.role, n.name, n.span, n.text⟩

/-- Concrete syntax in which comments are blocks and adopting nodes hold what they adopt. An
interior node carries what was reported of it, with the children it had then. -/
inductive Arranged where
  | comment (b : Block)
  | leaf (c : Concrete)
  | inner (c : Concrete) (below : List Arranged)

/-- What is met in a concrete tree from its start to its end. -/
inductive Landmark where
  | root (c : Concrete)
  | inner (c : Concrete)
  | leaf (c : Concrete)
  | comment (b : Block)

namespace Arranged

variable (g : Grammar) (source : ByteArray)

/-! ### Arranging siblings -/

/-- Whether two comments next to each other belong together: both are lines of documentation, and
the second starts on the row after the one on which the first ends. -/
def joins (x y : Concrete) : Bool :=
  g.isDocLine source x && g.isDocLine source y && y.label.start.row == x.label.stop.row + 1

/-- Puts a comment in front of siblings. It becomes part of the block that comes first among them,
if it belongs to it. -/
def prepend (c : Concrete) : List Arranged → List Arranged
  | .comment b :: rest =>
    if joins g source c b.first then .comment ⟨c, b.nodes⟩ :: rest
    else .comment ⟨c, []⟩ :: .comment b :: rest
  | rest => .comment ⟨c, []⟩ :: rest

/-- Arranges siblings. An interior node of an adopting type takes all siblings behind it as its last
children; what is below a comment is left out. -/
def ofSiblings : List Concrete → List Arranged
  | [] => []
  | c :: rest =>
    if g.isComment c then prepend g source c (ofSiblings rest)
    else if c.isLeaf then .leaf c :: ofSiblings rest
    else if g.isAdopting c then [.inner c (ofSiblings (c.children ++ rest))]
    else .inner c (ofSiblings c.children) :: ofSiblings rest
termination_by cs => Concrete.weightOfAll cs
decreasing_by
  all_goals
    have h := c.weight_eq
    simp only [Concrete.weightOfAll_cons, Concrete.weightOfAll_append]
    omega

/-- What is below the root of a concrete tree, arranged. The root itself adopts nothing. -/
def ofRoot (c : Concrete) : List Arranged := ofSiblings g source c.children

/-! ### What an arrangement says -/

mutual

/-- The landmarks of a piece of syntax, a node before what is below it. -/
def landmarks : Arranged → List Landmark
  | .comment b => [.comment b]
  | .leaf c => [.leaf c]
  | .inner c below => .inner c :: landmarksAll below

/-- The landmarks of pieces of syntax, one after the other. -/
def landmarksAll : List Arranged → List Landmark
  | [] => []
  | x :: xs => landmarks x ++ landmarksAll xs

end

/-- The entry of a leaf: a token with the text of the leaf. A missing leaf has a type of its own. -/
def entryOfLeaf? (c : Concrete) : Except Span.Fault Entry :=
  (Span.between? c.label.start c.label.stop).map fun span ↦
    let text := Utf8.slice source c.label.startByte c.label.endByte
    let type := if c.label.missing then Annotated.missingType else c.label.type
    ⟨Draft.tokenType (some type) text, .nothing, none, span, some text⟩

/-- The entry of an interior node below the root. -/
def entryOfInner? (c : Concrete) : Except Span.Fault Entry :=
  (Span.between? c.label.start c.label.stop).map fun span ↦
    ⟨c.label.type, g.role c.label.type, g.declaredName? source c, span, none⟩

/-- The entry of the root, which has no name. -/
def entryOfRoot? (c : Concrete) : Except Span.Fault Entry :=
  (Span.between? c.label.start c.label.stop).map fun span ↦
    ⟨c.label.type, g.role c.label.type, none, span, none⟩

variable {g source}

section

variable {c : Concrete} {span : Span} (h : Span.between? c.label.start c.label.stop = .ok span)

include h

theorem entryOfLeaf?_eq_ok : entryOfLeaf? source c =
    .ok ⟨Draft.tokenType (some (Annotated.leafType c)) (Annotated.leafText source c), .nothing,
      none, span, some (Annotated.leafText source c)⟩ := by
  rw [entryOfLeaf?, h]
  rfl

theorem entryOfInner?_eq_ok : entryOfInner? g source c =
    .ok ⟨c.label.type, g.role c.label.type, g.declaredName? source c, span, none⟩ := by
  rw [entryOfInner?, h]
  rfl

theorem entryOfRoot?_eq_ok : entryOfRoot? g c =
    .ok ⟨c.label.type, g.role c.label.type, none, span, none⟩ := by
  rw [entryOfRoot?, h]
  rfl

end

/-! ### Arranging from the front -/

theorem prepend_of_not_joins {c : Concrete} {xs : List Arranged}
    (h : ∀ b rest, xs = .comment b :: rest → joins g source c b.first = false) :
    prepend g source c xs = .comment ⟨c, []⟩ :: xs := by
  unfold prepend
  split
  · rename_i b rest
    rw [if_neg (by simp [h b rest rfl])]
  · rfl

/-- The first block of siblings that start with a comment starts with that comment. -/
theorem first_of_ofSiblings_cons {c : Concrete} {rest : List Concrete} {b : Block}
    {xs : List Arranged} (h : ofSiblings g source (c :: rest) = .comment b :: xs) :
    g.isComment c = true ∧ b.first = c := by
  rw [ofSiblings] at h
  split at h
  · refine ⟨‹_›, ?_⟩
    unfold prepend at h
    split at h
    · split at h <;> (cases h; rfl)
    · cases h
      rfl
  · split at h
    · cases h
    · split at h <;> cases h

/-- **A run of documentation lines is arranged as one block.** -/
theorem ofSiblings_run {c : Concrete} (hc : g.isComment c = true)
    (hd : g.isDocLine source c = true) (siblings : List Concrete) :
    ofSiblings g source (c :: siblings) =
      .comment ⟨c, (Block.run g source c siblings).1⟩ ::
        ofSiblings g source (Block.run g source c siblings).2 := by
  induction siblings generalizing c with
  | nil =>
    rw [ofSiblings, if_pos hc, Block.run, ofSiblings]
    rfl
  | cons d rest ih =>
    rw [ofSiblings, if_pos hc, Block.run]
    split
    · rename_i hcont
      simp only [Block.continues, Bool.and_eq_true] at hcont
      obtain ⟨⟨hdc, hrow⟩, hdd⟩ := hcont
      rw [ih hdc hdd]
      simp only [prepend, joins, hd, hdd, hrow, Bool.and_true, if_true]
      rfl
    · rename_i hcont
      refine prepend_of_not_joins fun b xs h ↦ ?_
      obtain ⟨hdc, hfirst⟩ := first_of_ofSiblings_cons h
      rw [Block.continues, hdc, Bool.true_and, Bool.not_eq_true] at hcont
      rw [hfirst, joins, hd, Bool.true_and, Bool.and_comm, hcont]

theorem ofSiblings_take {c : Concrete} (hc : g.isComment c = true) (rest : List Concrete) :
    ofSiblings g source (c :: rest) =
      .comment (Block.take g source c rest).1 ::
        ofSiblings g source (Block.take g source c rest).2 := by
  unfold Block.take
  split
  · rename_i hd
    exact ofSiblings_run hc hd rest
  · rename_i hd
    rw [Bool.not_eq_true] at hd
    rw [ofSiblings, if_pos hc]
    refine prepend_of_not_joins fun b xs _ ↦ ?_
    rw [joins, hd, Bool.false_and, Bool.false_and]

/-- **Arranging from the front**: the blocks before the first node that is not a comment, and then
what is arranged from that node on. -/
theorem ofSiblings_eq_leading (siblings : List Concrete) :
    ofSiblings g source siblings =
      (Block.leading g source siblings).1.map .comment ++
        ofSiblings g source (Block.leading g source siblings).2 := by
  fun_induction Block.leading g source siblings with
  | case1 => rfl
  | case2 c rest h t l ih =>
    rw [ofSiblings_take h, ih]
    rfl
  | case3 c rest h => rfl

/-- Siblings of which none is left behind the blocks. -/
theorem ofSiblings_of_leading_nil {cs : List Concrete} {blocks : List Block}
    (h : Block.leading g source cs = (blocks, [])) :
    ofSiblings g source cs = blocks.map .comment := by
  rw [ofSiblings_eq_leading, h, ofSiblings, List.append_nil]

/-- Siblings that go on with a leaf behind the blocks. -/
theorem ofSiblings_of_leading_leaf {cs rest : List Concrete} {c : Concrete} {blocks : List Block}
    (h : Block.leading g source cs = (blocks, c :: rest)) (hl : c.isLeaf = true) :
    ofSiblings g source cs = blocks.map .comment ++ .leaf c :: ofSiblings g source rest := by
  have hc := Block.isComment_leading_head g source (congrArg Prod.snd h)
  rw [ofSiblings_eq_leading, h]
  show _ ++ ofSiblings g source (c :: rest) = _
  rw [ofSiblings, if_neg (by simp [hc]), if_pos hl]

/-- Siblings that go on with an interior node behind the blocks. -/
theorem ofSiblings_of_leading_inner {cs rest : List Concrete} {c : Concrete} {blocks : List Block}
    (h : Block.leading g source cs = (blocks, c :: rest)) (hl : c.isLeaf = false) :
    ofSiblings g source cs = blocks.map .comment ++
      .inner c (ofSiblings g source (Annotated.inside g c rest)) ::
        ofSiblings g source (Annotated.behind g c rest) := by
  have hc := Block.isComment_leading_head g source (congrArg Prod.snd h)
  rw [ofSiblings_eq_leading, h]
  show _ ++ ofSiblings g source (c :: rest) = _
  rw [ofSiblings, if_neg (by simp [hc]), if_neg (by simp [hl]), Annotated.inside, Annotated.behind]
  split
  · rw [ofSiblings]
  · rfl

end Arranged

end CommentScope
