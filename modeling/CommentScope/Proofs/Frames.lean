import CommentScope.Proofs.Addresses
import CommentScope.Proofs.SiblingRuns

/-!
# Reading with a stack of frames

The reader keeps a stack of frames, one for each node whose children it is in. A frame has a list of
children and a cursor in it. Each step takes the children at the cursor of the innermost frame: a
comment with the lines of documentation that go on from it, a leaf, or an interior node, which gets a
frame of its own. If an interior node adopts the siblings behind it, the new frame lists them behind
the node's own children; they stay listed in the old frame too, whose cursor is moved to its end.
`Reader.step` is one such step and yields what it takes.

`moves_of_step` says what a step can do to the frames. All else here rests on it:

* A step takes effort (`Reader.Moves.effort_lt`). Effort counts the nodes that are ahead, those
  behind the cursors with all that is below them, twice, and the frames once: an adopted sibling is
  behind one cursor only. So the reader comes to its end, or to a fault, in as many steps
  (`Reader.isOver_of_steps`).
* What was taken and the nodes ahead that are outside of comments are together always the same, and
  in the same order (`Reader.Runs.sites`). So at the end everything was taken, and nothing twice.
-/

namespace CommentScope

/-- As what a node is taken: as a token, as an interior node, as a comment, or as a further line of
the comment before it. -/
inductive Way where
  | token
  | inner
  | comment
  | line
  deriving DecidableEq

/-- Whether a node may be taken so. -/
def Way.Fits (g : Grammar) (c : Concrete) : Way → Prop
  | .token => g.isComment c = false ∧ c.isLeaf = true
  | .inner => g.isComment c = false ∧ c.isLeaf = false
  | .comment | .line => g.isComment c = true

/-- That a node was taken, as what, and from the frame of which node. -/
structure Taking where
  site : Site
  frame : List Nat
  way : Way

/-- How far the children of a node have been read. `owner` is the address of the node and `parent`
its position in the draft. `token` is the token before the cursor, if there is a leaf, perhaps with
comments behind it, and `tokenRow` the row on which that leaf ends; `pending` are comments that wait
for the token behind the cursor. -/
structure Frame where
  owner : List Nat
  parent : Nat
  children : List Site
  isRoot : Bool
  position : Nat := 0
  token : Option Nat := none
  tokenRow : Int := -1
  pending : List Trivia := []

namespace Frame

/-- The children from the cursor on. -/
def rest (f : Frame) : List Site := f.children.drop f.position

/-- The frame with its cursor moved on. -/
def advance (f : Frame) (k : Nat) : Frame := { f with position := f.position + k }

theorem rest_advance (f : Frame) (k : Nat) : (f.advance k).rest = f.rest.drop k := by
  rw [rest, rest, List.drop_drop]
  rfl

theorem advance_advance (f : Frame) (k m : Nat) : (f.advance k).advance m = f.advance (k + m) := by
  rw [advance, advance, advance, Nat.add_assoc]

/-- The frame with further comments that wait. -/
def wait (f : Frame) (ts : List Trivia) : Frame := { f with pending := f.pending ++ ts }

theorem wait_nil (f : Frame) : f.wait [] = f := by
  rw [wait, List.append_nil]

theorem wait_wait (f : Frame) (ts us : List Trivia) : (f.wait ts).wait us = f.wait (ts ++ us) := by
  rw [wait, wait, wait, List.append_assoc]

/-- Whether the comments at the cursor wait for a token: the next child that is not a comment is a
leaf, or there is none and the root ends here. -/
def hosts (g : Grammar) (f : Frame) : Bool :=
  match f.rest.find? fun x ↦ !g.isComment x.node with
  | none => f.isRoot
  | some x => x.node.isLeaf

/-- The token that a comment trails: the one before the cursor, if it ends on the row on which the
comment starts. -/
def trailed? (f : Frame) (r : Remark) : Option Nat :=
  f.token.filter fun _ ↦ f.tokenRow == r.span.startLine

/-- Lets a comment that trails no token wait for the token behind it, or gives it a token of its own.
-/
def attachFree (g : Grammar) (f : Frame) (d : Draft) (r : Remark) :
    Except Draft.Fault (Frame × Draft) :=
  if f.hosts g then .ok (f.wait [r.trivia], d)
  else
    (d.addToken "" (some f.parent) (some Filler.anchor.type)
      (.emptyAt r.span.startLine r.span.startColumn) [r.trivia] []).map fun a ↦ (f, a.2)

/-- Attaches a comment to the token it trails, if there is one. -/
def attach (g : Grammar) (f : Frame) (d : Draft) (r : Remark) : Except Draft.Fault (Frame × Draft) :=
  match f.trailed? r with
  | some i => (d.addTrailing i r.trivia).map fun d ↦ (f, d)
  | none => f.attachFree g d r

theorem rest_owner_attach {g : Grammar} {f : Frame} {d : Draft} {r : Remark} {a : Frame × Draft}
    (h : f.attach g d r = .ok a) : a.1.rest = f.rest ∧ a.1.owner = f.owner := by
  unfold attach attachFree at h
  split at h
  · obtain ⟨e, -, rfl⟩ := Outcome.map_eq_ok_iff.1 h
    exact ⟨rfl, rfl⟩
  · split at h
    · cases h
      exact ⟨rfl, rfl⟩
    · obtain ⟨e, -, rfl⟩ := Outcome.map_eq_ok_iff.1 h
      exact ⟨rfl, rfl⟩

/-- The frame behind a leaf that has become the token at a position. -/
def pastLeaf (f : Frame) (c : Concrete) (token : Nat) : Frame :=
  { f.advance 1 with token := some token, tokenRow := c.label.stop.row, pending := [] }

/-- The frame behind an interior node, which is the end of the frame if the node adopts what is
behind it. -/
def pastInner (g : Grammar) (f : Frame) (c : Concrete) : Frame :=
  { f with
    position := if g.isAdopting c then f.children.length else f.position + 1, token := none }

/-- The frame for what an interior node holds, if `rest` is behind it. -/
def inner (g : Grammar) (parent : Nat) (x : Site) (rest : List Site) : Frame where
  owner := x.address
  parent := parent
  isRoot := false
  children := x.children ++ if g.isAdopting x.node then rest else []

theorem rest_pastLeaf {f : Frame} {x : Site} {rest : List Site} (h : f.rest = x :: rest)
    (c : Concrete) (token : Nat) : (f.pastLeaf c token).rest = rest := by
  show (f.advance 1).rest = rest
  rw [rest_advance, h, List.drop_one, List.tail_cons]

theorem rest_pastInner (g : Grammar) {f : Frame} {x : Site} {rest : List Site}
    (h : f.rest = x :: rest) (c : Concrete) :
    (f.pastInner g c).rest = if g.isAdopting c then [] else rest := by
  rw [Frame.rest, pastInner]
  split
  · exact List.drop_length
  · show (f.advance 1).rest = rest
    rw [rest_advance, h, List.drop_one, List.tail_cons]

/-- Ends a frame. The root ends with a token for the comments that still wait. -/
def leave (stop : Span) (f : Frame) (d : Draft) : Except Draft.Fault Draft :=
  if f.isRoot then
    (d.addToken "" (some f.parent) (some Filler.endOfFile.type)
      (.emptyAt stop.endLine stop.endColumn) f.pending []).map (·.2)
  else .ok d

end Frame

/-- The draft, and the frames that the reader is in, the innermost first. -/
structure Reader where
  draft : Draft
  stack : List Frame

namespace Reader

section

variable (g : Grammar) (source : ByteArray)

/-- Takes a comment and the lines of documentation that go on from it. -/
def takeComment (d : Draft) (f : Frame) (stack : List Frame) (x : Site) (rest : List Site) :
    Except Grammar.Fault (List Taking × Reader) := do
  let block := (Block.take g source x.node (rest.map Site.node)).1
  let remark ← (block.remark? g source).mapError .span
  let attached ← ((f.advance block.nodes.length).attach g d remark).mapError .draft
  let lines := rest.take block.more.length
  pure (⟨x, f.owner, .comment⟩ :: lines.map fun y ↦ ⟨y, f.owner, .line⟩,
    ⟨attached.2, attached.1 :: stack⟩)

/-- Takes a leaf as a token. -/
def takeLeaf (d : Draft) (f : Frame) (stack : List Frame) (x : Site) :
    Except Grammar.Fault (List Taking × Reader) := do
  let label := x.node.label
  let span ← (Span.between? label.start label.stop).mapError .span
  let added ← (d.addToken (Annotated.leafText source x.node) (some f.parent)
    (some (Annotated.leafType x.node)) span f.pending []).mapError .draft
  pure ([⟨x, f.owner, .token⟩], ⟨added.2, f.pastLeaf x.node added.1 :: stack⟩)

/-- Takes an interior node and enters it. -/
def takeInner (d : Draft) (f : Frame) (stack : List Frame) (x : Site) (rest : List Site) :
    Except Grammar.Fault (List Taking × Reader) := do
  let label := x.node.label
  let span ← (Span.between? label.start label.stop).mapError .span
  let added ← (d.addNode label.type (some f.parent) (g.role label.type)
    (g.declaredName? source x.node) span).mapError .draft
  pure ([⟨x, f.owner, .inner⟩],
    ⟨added.2, .inner g added.1 x rest :: f.pastInner g x.node :: stack⟩)

/-- One step of the reader: what it takes, and the reader afterwards. Nothing is done without a
frame. `stop` is the span of the root. -/
def step (stop : Span) (s : Reader) : Except Grammar.Fault (List Taking × Reader) :=
  match s.stack with
  | [] => .ok ([], s)
  | f :: stack =>
    match f.rest with
    | [] => ((f.leave stop s.draft).mapError .draft).map fun d ↦ ([], ⟨d, stack⟩)
    | x :: rest =>
      if g.isComment x.node then takeComment g source s.draft f stack x rest
      else if x.node.isLeaf then takeLeaf source s.draft f stack x
      else takeInner g source s.draft f stack x rest

/-- Some steps of the reader: what they take, and the reader afterwards. -/
def steps (stop : Span) : Nat → Reader → Except Grammar.Fault (List Taking × Reader)
  | 0, s => .ok ([], s)
  | n + 1, s => do
    let one ← step g source stop s
    let more ← steps stop n one.2
    pure (one.1 ++ more.1, more.2)

/-- The reader that has read nothing but the root, and is in front of its children. -/
def start (d : Draft) (root : Nat) (c : Concrete) : Reader :=
  ⟨d, [{ owner := [], parent := root, children := Site.children ⟨[], c⟩, isRoot := true }]⟩

/-- Reads a concrete tree in some steps: what they take, and the reader afterwards. -/
def read (c : Concrete) (n : Nat) : Except Grammar.Fault (List Taking × Reader) := do
  let span ← (Span.between? c.label.start c.label.stop).mapError .span
  let root ← ((Draft.empty (some g.language)).addNode c.label.type none (g.role c.label.type) none
    span).mapError .draft
  steps g source span n (start root.2 root.1 c)

end

/-! ### What a step can do -/

/-- The children behind the cursors, those of the innermost frame first. -/
def ahead (s : Reader) : List Site := s.stack.flatMap Frame.rest

/-- What a step does to the frames: it leaves a frame, takes some comments, takes a leaf, or enters an
interior node, together with siblings that are then no longer behind the cursor of the old frame. -/
inductive Moves (g : Grammar) : Reader → List Taking → Reader → Prop
  | leave (d d' : Draft) {f : Frame} (stack : List Frame) (exhausted : f.rest = []) :
      Moves g ⟨d, f :: stack⟩ [] ⟨d', stack⟩
  | comment (d d' : Draft) {f f' : Frame} (stack : List Frame) {x : Site} {lines behind : List Site}
      (before : f.rest = x :: (lines ++ behind)) (after : f'.rest = behind)
      (owner : f'.owner = f.owner) (areComments : ∀ y ∈ x :: lines, g.isComment y.node = true) :
      Moves g ⟨d, f :: stack⟩
        (⟨x, f.owner, .comment⟩ :: lines.map fun y ↦ ⟨y, f.owner, .line⟩) ⟨d', f' :: stack⟩
  | token (d d' : Draft) {f f' : Frame} (stack : List Frame) {x : Site} {behind : List Site}
      (before : f.rest = x :: behind) (after : f'.rest = behind) (owner : f'.owner = f.owner)
      (isCode : g.isComment x.node = false) (isLeaf : x.node.isLeaf = true) :
      Moves g ⟨d, f :: stack⟩ [⟨x, f.owner, .token⟩] ⟨d', f' :: stack⟩
  | enter (d d' : Draft) {f f' entered : Frame} (stack : List Frame) {x : Site}
      {adopted behind : List Site} (before : f.rest = x :: (adopted ++ behind))
      (inside : entered.rest = x.children ++ adopted) (opener : entered.owner = x.address)
      (after : f'.rest = behind) (owner : f'.owner = f.owner)
      (isCode : g.isComment x.node = false) (isInner : x.node.isLeaf = false) :
      Moves g ⟨d, f :: stack⟩ [⟨x, f.owner, .inner⟩] ⟨d', entered :: f' :: stack⟩

variable {g : Grammar} {source : ByteArray} {stop : Span} {d : Draft} {f : Frame}
  {stack : List Frame} {x : Site} {rest : List Site} {s s' : Reader} {taken : List Taking}

/-- The nodes of the block at the cursor are the next children. -/
theorem take_block (g : Grammar) (source : ByteArray) (c : Concrete) (rest : List Site) :
    (rest.take (Block.take g source c (rest.map Site.node)).1.more.length).map Site.node =
        (Block.take g source c (rest.map Site.node)).1.more ∧
      (rest.drop (Block.take g source c (rest.map Site.node)).1.more.length).map Site.node =
        (Block.take g source c (rest.map Site.node)).2 := by
  have hnodes := Block.nodes_take g source c (rest.map Site.node)
  generalize Block.take g source c (rest.map Site.node) = t at hnodes ⊢
  rw [Block.nodes, List.cons_append] at hnodes
  have hmore := (List.cons.inj hnodes).2
  constructor
  · rw [List.map_take, ← hmore, List.take_left]
  · rw [List.map_drop, ← hmore, List.drop_left]

theorem moves_of_takeComment (hrest : f.rest = x :: rest) (hx : g.isComment x.node = true)
    (h : takeComment g source d f stack x rest = .ok (taken, s')) :
    Moves g ⟨d, f :: stack⟩ taken s' := by
  obtain ⟨remark, -, h⟩ := Outcome.bind_eq_ok_iff.1 h
  obtain ⟨attached, hattached, h⟩ := Outcome.bind_eq_ok_iff.1 h
  cases h
  obtain ⟨hafter, howner⟩ := Frame.rest_owner_attach (Outcome.mapError_eq_ok_iff.1 hattached)
  rw [Frame.rest_advance, hrest, Block.nodes, List.length_cons, List.drop_succ_cons] at hafter
  refine .comment d _ stack (by rw [hrest, List.take_append_drop]) hafter howner ?_
  refine List.forall_mem_cons.2 ⟨hx, fun y hy ↦ ?_⟩
  have hmem := List.mem_map_of_mem (f := Site.node) hy
  rw [(take_block g source x.node rest).1] at hmem
  exact Block.isComment_of_mem_take hx (List.mem_cons_of_mem _ hmem)

theorem moves_of_takeLeaf (hrest : f.rest = x :: rest) (hx : g.isComment x.node = false)
    (hleaf : x.node.isLeaf = true) (h : takeLeaf source d f stack x = .ok (taken, s')) :
    Moves g ⟨d, f :: stack⟩ taken s' := by
  obtain ⟨span, -, h⟩ := Outcome.bind_eq_ok_iff.1 h
  obtain ⟨added, -, h⟩ := Outcome.bind_eq_ok_iff.1 h
  cases h
  exact .token d _ stack hrest (Frame.rest_pastLeaf hrest x.node added.1) rfl hx hleaf

theorem moves_of_takeInner (hrest : f.rest = x :: rest) (hx : g.isComment x.node = false)
    (hinner : x.node.isLeaf = false) (h : takeInner g source d f stack x rest = .ok (taken, s')) :
    Moves g ⟨d, f :: stack⟩ taken s' := by
  obtain ⟨span, -, h⟩ := Outcome.bind_eq_ok_iff.1 h
  obtain ⟨added, -, h⟩ := Outcome.bind_eq_ok_iff.1 h
  cases h
  refine .enter d _ stack ?_ rfl rfl (Frame.rest_pastInner g hrest x.node) rfl hx hinner
  rw [hrest]
  split
  · rw [List.append_nil]
  · rw [List.nil_append]

/-- **What a step can do**, as long as there is a frame. -/
theorem moves_of_step (h : step g source stop s = .ok (taken, s')) (hs : s.stack ≠ []) :
    Moves g s taken s' := by
  obtain ⟨d, stack⟩ := s
  cases stack with
  | nil => exact absurd rfl hs
  | cons f stack =>
    unfold step at h
    dsimp only at h
    split at h
    · obtain ⟨d', -, h⟩ := Outcome.map_eq_ok_iff.1 h
      cases h
      exact .leave d d' stack ‹_›
    · rename_i x rest hrest
      split at h
      · exact moves_of_takeComment hrest ‹_› h
      · rename_i hcode
        split at h
        · exact moves_of_takeLeaf hrest (Bool.eq_false_iff.2 hcode) ‹_› h
        · exact moves_of_takeInner hrest (Bool.eq_false_iff.2 hcode) (Bool.eq_false_iff.2 ‹_›) h

/-- What some steps can do, one after the other. -/
inductive Runs (g : Grammar) : Reader → List Taking → Reader → Prop
  | nil (s : Reader) : Runs g s [] s
  | cons {s s' s'' : Reader} {taken more : List Taking} (first : Moves g s taken s')
      (behind : Runs g s' more s'') : Runs g s (taken ++ more) s''

/-- A reader without frames has come to its end. -/
theorem steps_of_isOver (hs : s.stack = []) (n : Nat) :
    steps g source stop n s = .ok ([], s) := by
  have hstep : step g source stop s = .ok ([], s) := by rw [step, hs]
  induction n with
  | zero => rfl
  | succ n ih =>
    rw [steps, hstep]
    show steps g source stop n s >>= _ = _
    rw [ih]
    rfl

theorem runs_of_steps {n : Nat} (h : steps g source stop n s = .ok (taken, s')) :
    Runs g s taken s' := by
  induction n generalizing s taken with
  | zero =>
    cases h
    exact .nil _
  | succ n ih =>
    by_cases hs : s.stack = []
    · cases (steps_of_isOver hs (n + 1)).symm.trans h
      exact .nil _
    · obtain ⟨one, hone, h⟩ := Outcome.bind_eq_ok_iff.1 h
      obtain ⟨more, hmore, h⟩ := Outcome.bind_eq_ok_iff.1 h
      cases h
      exact .cons (moves_of_step hone hs) (ih hmore)

/-! ### The reader comes to its end -/

/-- What is still to be done: two steps at most for each node ahead, and one for each frame. -/
def effort (s : Reader) : Nat :=
  2 * Concrete.weightOfAll (s.ahead.map Site.node) + s.stack.length

/-- **A step takes effort**, also if an interior node adopts siblings. -/
theorem Moves.effort_lt (h : Moves g s taken s') : s'.effort < s.effort := by
  cases h with
  | leave d d' stack exhausted =>
    simp only [effort, ahead, List.flatMap_cons, exhausted, List.nil_append, List.length_cons]
    omega
  | @comment d d' f f' stack x lines behind before after owner =>
    have hx := x.node.weight_pos
    simp only [effort, ahead, List.flatMap_cons, before, after, List.cons_append, List.map_cons,
      List.map_append, Concrete.weightOfAll_cons, Concrete.weightOfAll_append, List.length_cons]
    omega
  | @token d d' f f' stack x behind before after owner =>
    have hx := x.node.weight_pos
    simp only [effort, ahead, List.flatMap_cons, before, after, List.cons_append, List.map_cons,
      List.map_append, Concrete.weightOfAll_cons, Concrete.weightOfAll_append, List.length_cons]
    omega
  | @enter d d' f f' entered stack x adopted behind before inside opener after =>
    -- The node itself is no longer ahead, and this pays for the new frame.
    have hx := x.node.weight_eq
    simp only [effort, ahead, List.flatMap_cons, before, inside, after, List.cons_append,
      List.map_cons, List.map_append, Concrete.weightOfAll_cons, Concrete.weightOfAll_append,
      List.length_cons, Site.map_node_children, hx]
    omega

/-- **The reader comes to its end**, if it does not fail: it has no frames left after as many steps
as there is effort. -/
theorem isOver_of_steps {n : Nat} (hn : s.effort ≤ n)
    (h : steps g source stop n s = .ok (taken, s')) : s'.stack = [] := by
  induction n generalizing s taken with
  | zero =>
    cases h
    rw [effort] at hn
    exact List.eq_nil_of_length_eq_zero (by omega)
  | succ n ih =>
    by_cases hs : s.stack = []
    · cases (steps_of_isOver hs (n + 1)).symm.trans h
      exact hs
    · obtain ⟨one, hone, h⟩ := Outcome.bind_eq_ok_iff.1 h
      obtain ⟨more, hmore, h⟩ := Outcome.bind_eq_ok_iff.1 h
      cases h
      have hlt := (moves_of_step hone hs).effort_lt
      exact ih (by omega) hmore

/-- **Further steps change nothing**: as many steps as there is effort are as good as more. -/
theorem steps_eq_of_effort_le {n m : Nat} (hn : s.effort ≤ n) (hm : s.effort ≤ m) :
    steps g source stop n s = steps g source stop m s := by
  induction n generalizing s m with
  | zero =>
    rw [effort] at hn
    have hs : s.stack = [] := List.eq_nil_of_length_eq_zero (by omega)
    rw [steps_of_isOver hs, steps_of_isOver hs]
  | succ n ih =>
    by_cases hs : s.stack = []
    · rw [steps_of_isOver hs, steps_of_isOver hs]
    · have hpos := List.length_pos_of_ne_nil hs
      obtain ⟨m, rfl⟩ : ∃ m', m = m' + 1 := ⟨m - 1, by rw [effort] at hm; omega⟩
      rw [steps, steps]
      cases hone : step g source stop s with
      | error fault => rfl
      | ok one =>
        have hlt := (moves_of_step hone hs).effort_lt
        show (steps g source stop n one.2 >>= fun more ↦ pure (one.1 ++ more.1, more.2)) = _
        rw [ih (m := m) (by omega) (by omega)]
        rfl

/-! ### What is taken -/

/-- The sites of comments are these alone. -/
theorem flatMap_sites_comments {xs : List Site} (h : ∀ y ∈ xs, g.isComment y.node = true) :
    xs.flatMap (Site.sites g) = xs := by
  induction xs with
  | nil => rfl
  | cons x xs ih =>
    obtain ⟨hx, hxs⟩ := List.forall_mem_cons.1 h
    rw [List.flatMap_cons, Site.sites_of_isComment hx, ih hxs, List.singleton_append]

/-- **A step takes what was ahead**, from the front: nothing is left out, and nothing is ahead
twice. -/
theorem Moves.sites (h : Moves g s taken s') :
    taken.map Taking.site ++ s'.ahead.flatMap (Site.sites g) = s.ahead.flatMap (Site.sites g) := by
  cases h with
  | leave d d' stack exhausted =>
    rw [ahead, ahead, List.flatMap_cons, exhausted]
    rfl
  | @comment d d' f f' stack x lines behind before after owner areComments =>
    have hsites : (lines.map fun y ↦ (⟨y, f.owner, .line⟩ : Taking)).map Taking.site = lines := by
      rw [List.map_map]
      exact List.map_id lines
    obtain ⟨hx, hlines⟩ := List.forall_mem_cons.1 areComments
    simp only [ahead, List.flatMap_cons, before, after, List.cons_append, List.flatMap_append,
      List.append_assoc, List.nil_append, List.map_cons, hsites, Site.sites_of_isComment hx,
      flatMap_sites_comments hlines]
  | @token d d' f f' stack x behind before after owner isCode isLeaf =>
    have hchildren : x.children = [] := by
      have hnodes := x.map_node_children
      rw [List.isEmpty_iff.1 isLeaf] at hnodes
      exact List.map_eq_nil_iff.1 hnodes
    rw [ahead, ahead, List.flatMap_cons, List.flatMap_cons, before, after, List.cons_append,
      List.flatMap_cons, Site.sites_of_not_isComment isCode, hchildren]
    rfl
  | @enter d d' f f' entered stack x adopted behind before inside opener after owner isCode =>
    rw [ahead, ahead, List.flatMap_cons, List.flatMap_cons, List.flatMap_cons, before, inside, after,
      List.cons_append, List.flatMap_cons, Site.sites_of_not_isComment isCode]
    simp only [List.flatMap_append, List.append_assoc, List.map_cons, List.map_nil,
      List.cons_append, List.nil_append]

/-- Whatever is taken is taken as what it is. -/
theorem Moves.fits (h : Moves g s taken s') : ∀ t ∈ taken, t.way.Fits g t.site.node := by
  cases h with
  | leave => exact fun t ht ↦ absurd ht List.not_mem_nil
  | comment d d' stack before after owner areComments =>
    obtain ⟨hx, hlines⟩ := List.forall_mem_cons.1 areComments
    refine List.forall_mem_cons.2 ⟨hx, fun t ht ↦ ?_⟩
    obtain ⟨y, hy, rfl⟩ := List.mem_map.1 ht
    exact hlines y hy
  | token d d' stack before after owner isCode isLeaf =>
    exact List.forall_mem_singleton.2 ⟨isCode, isLeaf⟩
  | enter d d' stack before inside opener after owner isCode isInner =>
    exact List.forall_mem_singleton.2 ⟨isCode, isInner⟩

/-- **What was taken and what is ahead** are together what was ahead at first, in the same order. -/
theorem Runs.sites (h : Runs g s taken s') :
    taken.map Taking.site ++ s'.ahead.flatMap (Site.sites g) = s.ahead.flatMap (Site.sites g) := by
  induction h with
  | nil s => rfl
  | cons first _ ih => rw [List.map_append, List.append_assoc, ih, first.sites]

theorem Runs.fits (h : Runs g s taken s') : ∀ t ∈ taken, t.way.Fits g t.site.node := by
  induction h with
  | nil s => exact fun t ht ↦ absurd ht List.not_mem_nil
  | cons first _ ih => exact List.forall_mem_append.2 ⟨first.fits, ih⟩

/-- The owners of the frames, those of the innermost first. -/
def owners (s : Reader) : List (List Nat) := s.stack.map Frame.owner

/-- A step takes from frames that are there, and makes frames for interior nodes that it takes. -/
theorem Moves.owners (h : Moves g s taken s') : (∀ t ∈ taken, t.frame ∈ s.owners) ∧
    ∀ o ∈ s'.owners, o ∈ s.owners ∨ ∃ t ∈ taken, t.way = .inner ∧ t.site.address = o := by
  cases h with
  | leave =>
    exact ⟨fun t ht ↦ absurd ht List.not_mem_nil, fun o ho ↦ .inl (List.mem_cons_of_mem _ ho)⟩
  | @comment d d' f f' stack x lines behind before after owner =>
    simp only [Reader.owners, List.map_cons, owner]
    refine ⟨List.forall_mem_cons.2 ⟨List.mem_cons_self, fun t ht ↦ ?_⟩, fun o ho ↦ .inl ho⟩
    obtain ⟨y, hy, rfl⟩ := List.mem_map.1 ht
    exact List.mem_cons_self
  | @token d d' f f' stack x behind before after owner =>
    simp only [Reader.owners, List.map_cons, owner]
    exact ⟨List.forall_mem_singleton.2 List.mem_cons_self, fun o ho ↦ .inl ho⟩
  | @enter d d' f f' entered stack x adopted behind before inside opener after owner =>
    simp only [Reader.owners, List.map_cons, owner, opener]
    refine ⟨List.forall_mem_singleton.2 List.mem_cons_self, fun o ho ↦ ?_⟩
    rcases List.mem_cons.1 ho with rfl | ho
    · exact .inr ⟨_, List.mem_singleton_self _, rfl, rfl⟩
    · exact .inl ho

/-- **Frames belong to interior nodes that were taken**, but for those that were there at first. -/
theorem Runs.owners (h : Runs g s taken s') : ∀ t ∈ taken, t.frame ∈ s.owners ∨
    ∃ u ∈ taken, u.way = .inner ∧ u.site.address = t.frame := by
  induction h with
  | nil s => exact fun t ht ↦ absurd ht List.not_mem_nil
  | @cons s s' s'' taken more first _ ih =>
    obtain ⟨hfrom, howners⟩ := first.owners
    refine List.forall_mem_append.2 ⟨fun t ht ↦ .inl (hfrom t ht), fun t ht ↦ ?_⟩
    rcases ih t ht with hframe | ⟨u, hu, huway⟩
    · rcases howners _ hframe with hframe | ⟨u, hu, huway⟩
      · exact .inl hframe
      · exact .inr ⟨u, List.mem_append_left _ hu, huway⟩
    · exact .inr ⟨u, List.mem_append_right _ hu, huway⟩

/-! ### All of a tree -/

/-- Whether all nodes of a tree below its root that are not inside a comment were taken, each once
and as what it is. The addresses of what was taken rise, so none of them occurs twice. What is taken
comes from the frame of the root or of an interior node that was taken, so each of these has one
frame. -/
structure TakesEachOnce (g : Grammar) (c : Concrete) (taken : List Taking) : Prop where
  rising : (taken.map fun t ↦ t.site.address).Pairwise (· < ·)
  outside (address : List Nat) :
    address ∈ taken.map (fun t ↦ t.site.address) ↔ c.IsOutside g address
  node : ∀ t ∈ taken, c.at? t.site.address = some t.site.node
  way : ∀ t ∈ taken, t.way.Fits g t.site.node
  frame : ∀ t ∈ taken, t.frame = [] ∨ ∃ u ∈ taken, u.way = .inner ∧ u.site.address = t.frame

variable {c : Concrete} {root : Nat}

theorem effort_start_le (d : Draft) (root : Nat) (c : Concrete) :
    (start d root c).effort ≤ 2 * c.weight := by
  have heffort : (start d root c).effort = 2 * Concrete.weightOfAll
      ((Site.children ⟨[], c⟩ ++ []).map Site.node) + 1 := rfl
  rw [heffort, List.append_nil, Site.map_node_children, c.weight_eq]
  show 2 * Concrete.weightOfAll c.children + 1 ≤ _
  omega

/-- **A reader that comes to its end has taken everything once.** -/
theorem Runs.takesEachOnce (h : Runs g (start d root c) taken s') (hover : s'.stack = []) :
    TakesEachOnce g c taken := by
  have hsites : taken.map Taking.site = c.outside g := by
    have hrun := h.sites
    rw [ahead, hover] at hrun
    simpa [start, ahead, Frame.rest, Concrete.outside] using hrun
  have haddress : taken.map (fun t ↦ t.site.address) = (c.outside g).map Site.address := by
    rw [← hsites, List.map_map]
    rfl
  have hmem : ∀ t ∈ taken, t.site ∈ c.outside g := fun t ht ↦ hsites ▸ List.mem_map_of_mem ht
  refine ⟨?_, fun address ↦ ?_, fun t ht ↦ (mem_outside_iff.1 (hmem t ht)).1, h.fits, fun t ht ↦ ?_⟩
  · rw [haddress]
    exact List.pairwise_map.2 (pairwise_outside g c)
  · rw [haddress, List.mem_map]
    constructor
    · rintro ⟨x, hx, rfl⟩
      exact (mem_outside_iff.1 hx).2
    · intro hout
      obtain ⟨e, he⟩ := hout.1
      exact ⟨⟨address, e⟩, mem_outside_iff.2 ⟨he, hout⟩, rfl⟩
  · rcases h.owners t ht with hframe | hframe
    · exact .inl (List.mem_singleton.1 hframe)
    · exact .inr hframe

end Reader

end CommentScope
