import CommentScope.Proofs.DraftRuns
import CommentScope.Proofs.Frames
import CommentScope.Proofs.ReadAlike

/-!
# What the stack of frames reads

A frame on top of any stack is read as its siblings are (`Reader.readAs_siblings`): the reader lays
out in the draft what `Annotated.siblings` makes of them, or fails with the same fault, and goes on
with the stack below. So the tree is the one that is read by recursion.
-/

namespace CommentScope

open Annotated

/-! ### Trivia behind tokens of a draft -/

namespace Draft

/-- A draft with trivia behind a token, if there is one. -/
def trail (d : Draft) (token : Option Nat) (ts : List Trivia) : Draft :=
  match token with
  | none => d
  | some i => ⟨d.language, d.nodes.modify i (·.withTrailing ts)⟩

/-- Whether there is a token at a position. -/
def IsToken (d : Draft) (i : Nat) : Prop := ∃ n, d.nodes[i]? = some n ∧ n.isToken = true

variable {d : Draft} {token : Option Nat} {i k parent : Nat} {n : Node}

theorem IsToken.lt (h : d.IsToken i) : i < d.nodes.size := by
  obtain ⟨n, hn, -⟩ := h
  exact (Array.getElem?_eq_some_iff.1 hn).1

theorem addTrailing_of_isToken (h : d.IsToken i) (t : Trivia) :
    d.addTrailing i t = .ok (d.trail (some i) [t]) := by
  obtain ⟨n, hn, ht⟩ := h
  have htoken : d.tokenAt i = .ok i := by
    rw [tokenAt, if_neg (Int.not_lt.2 (Int.natCast_nonneg i)), if_pos (Int.natCast_nonneg i),
      Int.toNat_natCast, hn]
    exact if_pos ht
  rw [addTrailing_eq, htoken]
  rfl

theorem trail_nil (d : Draft) (token : Option Nat) : d.trail token [] = d := by
  cases token with
  | none => rfl
  | some i =>
    have hid : (fun n : Node ↦ n.withTrailing []) = id := by
      funext n
      simp [Node.withTrailing]
    refine ext_toList rfl ?_
    simp [trail, hid]

theorem trail_trail (d : Draft) (token : Option Nat) (ts us : List Trivia) :
    (d.trail token ts).trail token us = d.trail token (ts ++ us) := by
  cases token with
  | none => rfl
  | some i =>
    refine ext_toList rfl ?_
    simp only [trail, Array.toList_modify, List.modify_modify_eq]
    congr 1
    funext n
    simp [Node.withTrailing]

/-- A node stays a token, or stays none, when trivia are added. -/
theorem exists_getElem?_trail (hn : d.nodes[k]? = some n) (token : Option Nat)
    (ts : List Trivia) :
    ∃ m, (d.trail token ts).nodes[k]? = some m ∧ m.isToken = n.isToken := by
  cases token with
  | none => exact ⟨n, hn, rfl⟩
  | some i =>
    refine ⟨if i = k then n.withTrailing ts else n, ?_, by split <;> rfl⟩
    rw [trail, Array.getElem?_modify, hn]
    split <;> rfl

theorem IsToken.trail (h : d.IsToken i) (token : Option Nat) (ts : List Trivia) :
    (d.trail token ts).IsToken i := by
  obtain ⟨n, hn, ht⟩ := h
  obtain ⟨m, hm, hmn⟩ := exists_getElem?_trail hn token ts
  exact ⟨m, hm, hmn.trans ht⟩

theorem IsInterior.trail (h : d.IsInterior i) (token : Option Nat) (ts : List Trivia) :
    (d.trail token ts).IsInterior i := by
  obtain ⟨n, hn, ht⟩ := h
  obtain ⟨m, hm, hmn⟩ := exists_getElem?_trail hn token ts
  exact ⟨m, hm, hmn.trans ht⟩

theorem IsToken.grow (h : d.IsToken i) (parent : Nat) (as : List Annotated) :
    (d.grow parent as).IsToken i := by
  obtain ⟨n, hn, ht⟩ := h
  obtain ⟨m, hm, hmn⟩ := exists_getElem?_grow hn parent as
  exact ⟨m, hm, hmn.trans ht⟩

/-- Trivia may be added behind an earlier token after syntax was laid out, or before. -/
theorem trail_grow (h : ∀ i ∈ token, d.IsToken i) (parent : Nat) (as : List Annotated)
    (ts : List Trivia) : (d.grow parent as).trail token ts = (d.trail token ts).grow parent as := by
  cases token with
  | none => rfl
  | some i =>
    have hi := (h i rfl).lt
    refine ext_toList rfl ?_
    have hcomm : (d.nodes.toList.modify parent (·.withChildren (starts d.nodes.size as))).modify i
          (·.withTrailing ts) =
        (d.nodes.toList.modify i (·.withTrailing ts)).modify parent
          (·.withChildren (starts d.nodes.size as)) := by
      refine List.ext_getElem? fun k ↦ ?_
      simp only [List.getElem?_modify, Option.map_eq_map, Option.map_map]
      congr 1
      funext n
      simp only [Function.comp_apply]
      split <;> split <;> rfl
    simp only [trail, grow, Array.toList_modify, Array.toList_append, Array.size_modify]
    rw [modify_append_of_lt _ _ (by simpa using hi), hcomm]

/-- Trivia behind the token just laid out. -/
theorem trail_grow_token (d : Draft) (parent : Nat) (type text : String) (span : Span)
    (leading trailing more : List Trivia) :
    (d.grow parent [.token type text span leading trailing]).trail (some d.nodes.size) more =
      d.grow parent [.token type text span leading (trailing ++ more)] := by
  refine ext_toList rfl ?_
  simp only [trail, grow, Array.toList_modify, Array.toList_append, layoutAll, layout,
    List.append_nil]
  rw [modify_append_cons _ _ _ (by simp)]
  rfl

/-- Laying out goes on behind a token that gets trivia. -/
theorem grow_trail_grow_token (h : parent < d.nodes.size) (type text : String) (span : Span)
    (leading trailing : List Trivia) (as : List Annotated) :
    ((d.grow parent [.token type text span leading []]).trail (some d.nodes.size) trailing).grow
        parent as =
      d.grow parent (.token type text span leading trailing :: as) := by
  rw [trail_grow_token, List.nil_append, grow_grow h, List.singleton_append]

theorem isToken_grow_token (d : Draft) (parent : Nat) (type text : String) (span : Span)
    (leading trailing : List Trivia) :
    (d.grow parent [.token type text span leading trailing]).IsToken d.nodes.size := by
  refine ⟨head (some parent) d.nodes.size (.token type text span leading trailing), ?_, rfl⟩
  rw [grow, Array.getElem?_append_right (by simp)]
  simp [layoutAll, layout]

end Draft

/-! ### What a frame does to the draft -/

/-- Whether comments wait for a token, before the first of the siblings that is not a comment. -/
def hostedBy (isRoot : Bool) : List Concrete → Bool
  | [] => isRoot
  | c :: _ => c.isLeaf

namespace Frame

variable {g : Grammar} {source : ByteArray} {stop : Span} {f : Frame} {d : Draft}

/-- The row on which the token before the cursor ends, if there is one. -/
def after (f : Frame) : Option Int := f.token.map fun _ ↦ f.tokenRow

/-- Whether a frame refers to nodes of a draft: its parent is an interior node, and the token before
the cursor is a token. -/
structure SitsIn (f : Frame) (d : Draft) : Prop where
  parent : d.IsInterior f.parent
  token : ∀ i ∈ f.token, d.IsToken i

theorem SitsIn.trail (h : f.SitsIn d) (token : Option Nat) (ts : List Trivia) :
    f.SitsIn (d.trail token ts) :=
  ⟨h.parent.trail token ts, fun i hi ↦ (h.token i hi).trail token ts⟩

theorem SitsIn.grow (h : f.SitsIn d) (parent : Nat) (as : List Annotated) :
    f.SitsIn (d.grow parent as) :=
  ⟨h.parent.grow parent as, fun i hi ↦ (h.token i hi).grow parent as⟩

/-- A frame and the draft once the cursor has passed `k` comment nodes. The first share of their
comments trails the token before the cursor. The others wait, or get tokens of their own. -/
def past (f : Frame) (hosted : Bool) (d : Draft) (k : Nat) (shares : List Remark × List Remark) :
    Frame × Draft :=
  let d := d.trail f.token (shares.1.map Remark.trivia)
  if hosted then ((f.advance k).wait (shares.2.map Remark.trivia), d)
  else (f.advance k, d.grow f.parent (shares.2.map anchor))

theorem past_true (f : Frame) (d : Draft) (k : Nat) (shares : List Remark × List Remark) :
    f.past true d k shares = ((f.advance k).wait (shares.2.map Remark.trivia),
      d.trail f.token (shares.1.map Remark.trivia)) :=
  rfl

theorem past_false (f : Frame) (d : Draft) (k : Nat) (shares : List Remark × List Remark) :
    f.past false d k shares = (f.advance k,
      (d.trail f.token (shares.1.map Remark.trivia)).grow f.parent (shares.2.map anchor)) :=
  rfl

theorem past_nil (f : Frame) (hosted : Bool) (d : Draft) (k : Nat) :
    f.past hosted d k ([], []) = (f.advance k, d) := by
  cases hosted with
  | true =>
    show ((f.advance k).wait [], d.trail f.token []) = _
    rw [wait_nil, Draft.trail_nil]
  | false =>
    show (f.advance k, (d.trail f.token []).grow f.parent []) = _
    rw [Draft.trail_nil, Draft.grow_nil]

theorem past_advance (f : Frame) (hosted : Bool) (d : Draft) (k m : Nat)
    (shares : List Remark × List Remark) :
    (f.advance k).past hosted d m shares = f.past hosted d (k + m) shares := by
  cases hosted with
  | true => rw [past_true, past_true, advance_advance]; rfl
  | false => rw [past_false, past_false, advance_advance]; rfl

theorem rest_past (f : Frame) (hosted : Bool) (d : Draft) (k : Nat)
    (shares : List Remark × List Remark) : (f.past hosted d k shares).1.rest = f.rest.drop k := by
  rw [← rest_advance]
  cases hosted <;> rfl

/-- Behind a gap stands what `Block.leading` leaves. -/
theorem map_rest_past {blocks : List Block} {behind : List Concrete}
    (gap : Block.leading g source (f.rest.map Site.node) = (blocks, behind)) (hosted : Bool)
    (d : Draft) (shares : List Remark × List Remark) :
    (f.past hosted d (blocks.flatMap Block.nodes).length shares).1.rest.map Site.node = behind := by
  rw [rest_past, List.map_drop, (Block.of_leading gap).1, List.drop_left]

theorem after_past (f : Frame) (hosted : Bool) (d : Draft) (k : Nat)
    (shares : List Remark × List Remark) : (f.past hosted d k shares).1.after = f.after := by
  cases hosted <;> rfl

theorem isRoot_past (f : Frame) (hosted : Bool) (d : Draft) (k : Nat)
    (shares : List Remark × List Remark) : (f.past hosted d k shares).1.isRoot = f.isRoot := by
  cases hosted <;> rfl

theorem SitsIn.past (h : f.SitsIn d) (hosted : Bool) (k : Nat)
    (shares : List Remark × List Remark) :
    (f.past hosted d k shares).1.SitsIn (f.past hosted d k shares).2 := by
  have htrail := h.trail f.token (shares.1.map Remark.trivia)
  cases hosted with
  | true => exact ⟨htrail.parent, htrail.token⟩
  | false =>
    have hgrow := htrail.grow f.parent (shares.2.map anchor)
    exact ⟨hgrow.parent, hgrow.token⟩

/-- **Comments are passed a few at a time or at once.** Trivia may be added behind the token before
the cursor after comments that come later got tokens of their own. -/
theorem past_past (h : f.SitsIn d) (hosted : Bool) (k m : Nat)
    (shares more : List Remark × List Remark) :
    (f.past hosted d k shares).1.past hosted (f.past hosted d k shares).2 m more =
      f.past hosted d (k + m) (shares.1 ++ more.1, shares.2 ++ more.2) := by
  have hd := h.trail f.token (shares.1.map Remark.trivia)
  cases hosted with
  | true =>
    simp only [past_true, List.map_append]
    refine Prod.ext ?_ (Draft.trail_trail d f.token _ _)
    show (((f.advance k).advance m).wait _).wait _ = _
    rw [advance_advance, wait_wait]
  | false =>
    have hlt := (hd.parent.trail f.token (more.1.map Remark.trivia)).lt
    simp only [past_false, List.map_append]
    refine Prod.ext (advance_advance f k m) ?_
    show (((d.trail f.token _).grow f.parent _).trail f.token _).grow f.parent _ = _
    rw [Draft.trail_grow hd.token, Draft.grow_grow hlt, Draft.trail_trail]

/-- Whether comments wait is said by what stands behind the gap that they are in. -/
theorem hosts_eq {blocks : List Block} {behind : List Concrete}
    (gap : Block.leading g source (f.rest.map Site.node) = (blocks, behind)) :
    f.hosts g = hostedBy f.isRoot behind := by
  obtain ⟨hnodes, hcomments⟩ := Block.of_leading gap
  have hfind : (f.rest.find? fun x ↦ !g.isComment x.node).map Site.node = behind.head? := by
    have hnone : (blocks.flatMap Block.nodes).find? (fun c ↦ !g.isComment c) = none :=
      List.find?_eq_none.2 fun c hc ↦ by simp [hcomments c hc]
    have hmap : (f.rest.map Site.node).find? (fun c ↦ !g.isComment c) =
        (f.rest.find? fun x ↦ !g.isComment x.node).map Site.node := List.find?_map
    rw [← hmap, hnodes, List.find?_append, hnone, Option.none_or]
    cases behind with
    | nil => rfl
    | cons c rest =>
      have hc := Block.isComment_leading_head g source (congrArg Prod.snd gap)
      rw [List.find?_cons_of_pos (by simp [hc]), List.head?_cons]
  rw [hosts]
  cases behind with
  | nil =>
    rw [Option.map_eq_none_iff.1 hfind]
    rfl
  | cons c rest =>
    obtain ⟨x, hx, rfl⟩ := Option.map_eq_some_iff.1 hfind
    rw [hx]
    rfl

/-- The token that a comment trails is the one before the cursor, if the comment starts on its row. -/
theorem trailed?_eq (f : Frame) (r : Remark) :
    f.trailed? r = if startsOn f.after r then f.token else none := by
  rw [trailed?, startsOn, after]
  cases f.token with
  | none => rfl
  | some i => by_cases hrow : f.tokenRow = r.span.startLine <;> simp [hrow]

theorem attachFree_eq (h : d.IsInterior f.parent) (r : Remark) :
    f.attachFree g d r = .ok (f.past (f.hosts g) d 0 ([], [r])) := by
  have hnil : d.trail f.token [] = d := Draft.trail_nil d f.token
  rw [attachFree]
  cases f.hosts g with
  | true =>
    rw [past_true, List.map_nil, hnil]
    rfl
  | false =>
    rw [if_neg Bool.false_ne_true, Draft.addToken, Draft.push_leaf h (a := anchor r) rfl, past_false,
      List.map_nil, hnil]
    rfl

/-- **What attaching a comment does**, and that it never fails. -/
theorem attach_eq (h : f.SitsIn d) (r : Remark) :
    f.attach g d r = .ok (f.past (f.hosts g) d 0 ([r].partition (startsOn f.after))) := by
  rw [attach, trailed?_eq]
  split
  · rename_i i hi
    split at hi
    · rename_i hrow
      have hone : [r].partition (startsOn f.after) = ([r], []) := by simp [hrow]
      rw [hone, Draft.addTrailing_of_isToken (h.token i hi), ← hi]
      cases f.hosts g with
      | true =>
        rw [past_true, List.map_nil, wait_nil]
        rfl
      | false =>
        rw [past_false, List.map_nil, Draft.grow_nil]
        rfl
    · cases hi
  · rename_i hnone
    split at hnone
    · rename_i hrow
      rw [startsOn, after, hnone] at hrow
      cases hrow
    · rename_i hrow
      have hone : [r].partition (startsOn f.after) = ([], [r]) := by simp [hrow]
      rw [hone, attachFree_eq h.parent]

/-- **What ending a frame does**, and that it never fails. -/
theorem leave_eq (h : d.IsInterior f.parent) : f.leave stop d =
    .ok (if f.isRoot then d.grow f.parent [endOfFile stop f.pending] else d) := by
  rw [leave]
  split
  · rw [Draft.addToken, Draft.push_leaf h (a := endOfFile stop f.pending) rfl]
    rfl
  · rfl

end Frame

/-! ### What the reader drafts -/

namespace Annotated

variable {g : Grammar} {source : ByteArray}

/-- Sharing out a gap, comment by comment. -/
theorem shareOut_cons (after : Option Int) (b : Block) (bs : List Block) :
    shareOut g source after (b :: bs) = (do
      let r ← b.remark? g source
      let shares ← shareOut g source after bs
      let one := [r].partition (startsOn after)
      pure (one.1 ++ shares.1, one.2 ++ shares.2)) := by
  rw [shareOut, shareOut, List.mapM_cons]
  cases b.remark? g source with
  | error fault => rfl
  | ok r =>
    show Except.map _ (bs.mapM (Block.remark? g source) >>= fun rs ↦ pure (r :: rs)) = _
    cases bs.mapM (Block.remark? g source) with
    | error fault => rfl
    | ok rs =>
      refine congrArg Except.ok (?_ : (r :: rs).partition (startsOn after) = _)
      simp only [List.partition_eq_filter_filter, ← List.filter_append, List.singleton_append]

variable {root : Option Span} {after : Option Int} {cs rest : List Concrete} {c : Concrete}
  {blocks : List Block}

/-- Reading siblings with a leaf behind the first gap. -/
theorem siblings_of_leaf (gap : Block.leading g source cs = (blocks, c :: rest))
    (hleaf : c.isLeaf = true) :
    siblings g source root after cs = (do
      let shares ← shareOut g source after blocks
      let span ← Span.between? c.label.start c.label.stop
      let more ← siblings g source root (some c.label.stop.row) rest
      pure (shares.1.map Remark.trivia,
        .token (leafType c) (leafText source c) span (shares.2.map Remark.trivia) more.1 ::
          more.2)) := by
  rw [siblings_of_gap gap]
  simp only [hleaf, if_true]

/-- Reading siblings with an interior node behind the first gap. -/
theorem siblings_of_inner (gap : Block.leading g source cs = (blocks, c :: rest))
    (hinner : c.isLeaf = false) :
    siblings g source root after cs = (do
      let shares ← shareOut g source after blocks
      let span ← Span.between? c.label.start c.label.stop
      let below ← siblings g source none none (inside g c rest)
      let more ← siblings g source root none (behind g c rest)
      pure (shares.1.map Remark.trivia, shares.2.map anchor ++
        .branch c.label.type (g.role c.label.type) (g.declaredName? source c) span below.2 ::
          more.2)) := by
  rw [siblings_of_gap gap]
  simp only [hinner, Bool.false_eq_true, if_false]

end Annotated

/-- The first of the blocks in front of siblings, and what is behind it. -/
theorem Block.exists_of_leading_cons {g : Grammar} {source : ByteArray} {cs behind : List Concrete}
    {b : Block} {bs : List Block} (gap : leading g source cs = (b :: bs, behind)) :
    ∃ c rest, cs = c :: rest ∧ g.isComment c = true ∧ (take g source c rest).1 = b ∧
      leading g source (take g source c rest).2 = (bs, behind) := by
  cases cs with
  | nil =>
    rw [leading] at gap
    cases gap
  | cons c rest =>
    rw [leading] at gap
    split at gap
    · cases gap
      exact ⟨c, rest, rfl, ‹_›, rfl, rfl⟩
    · cases gap

namespace Reader

variable {g : Grammar} {source : ByteArray} {stop : Span} {d : Draft} {f : Frame}
  {stack : List Frame} {x : Site} {rest : List Site}

/-- The reader with a frame on top of a stack. -/
def on (stack : List Frame) (a : Frame × Draft) : Reader := ⟨a.2, a.1 :: stack⟩

variable (g source stop) in
/-- What the reader has drafted when it comes to its end. -/
def drafted (s : Reader) : Except Grammar.Fault Draft :=
  (steps g source stop s.effort s).map fun r ↦ r.2.draft

theorem drafted_nil (d : Draft) : drafted g source stop ⟨d, []⟩ = .ok d := by
  rw [drafted, steps_of_isOver rfl]
  rfl

/-- The reader drafts what it drafts after a step. -/
theorem drafted_cons (d : Draft) (f : Frame) (stack : List Frame) :
    drafted g source stop ⟨d, f :: stack⟩ =
      step g source stop ⟨d, f :: stack⟩ >>= fun one ↦ drafted g source stop one.2 := by
  obtain ⟨n, hn⟩ : ∃ n, effort ⟨d, f :: stack⟩ = n + 1 := ⟨_, rfl⟩
  rw [drafted, hn, steps]
  cases hone : step g source stop ⟨d, f :: stack⟩ with
  | error fault => rfl
  | ok one =>
    have hlt := (moves_of_step hone (List.cons_ne_nil f stack)).effort_lt
    rw [hn] at hlt
    show Except.map _ (steps g source stop n one.2 >>= _) = drafted g source stop one.2
    rw [steps_eq_of_effort_le (Nat.le_of_lt_succ hlt) (Nat.le_refl _), drafted]
    cases steps g source stop one.2.effort one.2 <;> rfl

theorem step_of_exhausted (h : f.rest = []) : step g source stop ⟨d, f :: stack⟩ =
    ((f.leave stop d).mapError .draft).map fun d ↦ ([], ⟨d, stack⟩) := by
  simp only [step, h]

theorem step_of_isComment (h : f.rest = x :: rest) (hx : g.isComment x.node = true) :
    step g source stop ⟨d, f :: stack⟩ = takeComment g source d f stack x rest := by
  simp only [step, h, if_pos hx]

theorem step_of_isLeaf (h : f.rest = x :: rest) (hx : g.isComment x.node = false)
    (hleaf : x.node.isLeaf = true) :
    step g source stop ⟨d, f :: stack⟩ = takeLeaf source d f stack x := by
  simp only [step, h, hx, hleaf, if_pos, Bool.false_eq_true, if_false]

theorem step_of_isInner (h : f.rest = x :: rest) (hx : g.isComment x.node = false)
    (hinner : x.node.isLeaf = false) :
    step g source stop ⟨d, f :: stack⟩ = takeInner g source d f stack x rest := by
  simp only [step, h, hx, hinner, Bool.false_eq_true, if_false]

/-- What a comment at the cursor adds to the draft. -/
theorem drafted_comment (hf : f.SitsIn d) (h : f.rest = x :: rest) (hx : g.isComment x.node = true)
    {b : Block} (hb : (Block.take g source x.node (rest.map Site.node)).1 = b) :
    drafted g source stop ⟨d, f :: stack⟩ =
      (b.remark? g source).mapError .span >>= fun r ↦
        let f' := f.advance b.nodes.length
        drafted g source stop (.on stack
          (f'.past (f'.hosts g) d 0 ([r].partition (startsOn f.after)))) := by
  rw [drafted_cons, step_of_isComment h hx, takeComment, hb]
  cases b.remark? g source with
  | error fault => rfl
  | ok r =>
    have hattach := Frame.attach_eq (g := g) (f := f.advance b.nodes.length) ⟨hf.parent, hf.token⟩ r
    show (((f.advance b.nodes.length).attach g d r).mapError Grammar.Fault.draft >>= _) >>= _ = _
    rw [hattach]
    rfl

/-- **A gap is read comment by comment**: the reader gets past it with the comments shared out as by
`Annotated.shareOut`. -/
theorem drafted_gap {blocks : List Block} {behind : List Concrete} (hf : f.SitsIn d)
    (gap : Block.leading g source (f.rest.map Site.node) = (blocks, behind)) :
    drafted g source stop ⟨d, f :: stack⟩ =
      (shareOut g source f.after blocks).mapError .span >>= fun shares ↦
        drafted g source stop (.on stack
          (f.past (hostedBy f.isRoot behind) d (blocks.flatMap Block.nodes).length shares)) := by
  induction blocks generalizing f d with
  | nil =>
    show _ = drafted g source stop (.on stack (f.past _ d 0 ([], [])))
    rw [Frame.past_nil]
    rfl
  | cons b bs ih =>
    obtain ⟨c, siblings, hcs, hc, hb, hbehind⟩ := Block.exists_of_leading_cons gap
    obtain ⟨x, rest, hrest, rfl, rfl⟩ := List.map_eq_cons_iff.1 hcs
    rw [drafted_comment hf hrest hc hb, shareOut_cons, Outcome.mapError_bind]
    cases b.remark? g source with
    | error fault => rfl
    | ok r =>
      have hnext : (f.advance b.nodes.length).rest.map Site.node =
          (Block.take g source x.node (rest.map Site.node)).2 := by
        rw [Frame.rest_advance, hrest, Block.nodes, List.length_cons, List.drop_succ_cons, ← hb]
        exact (take_block g source x.node rest).2
      rw [← hnext] at hbehind
      have hf' : (f.advance b.nodes.length).SitsIn d := ⟨hf.parent, hf.token⟩
      show drafted g source stop (.on stack ((f.advance b.nodes.length).past _ d 0 _)) = _
      rw [Frame.hosts_eq hbehind]
      refine (ih (hf'.past _ 0 _) (by rwa [Frame.rest_past, List.drop_zero])).trans ?_
      rw [Frame.after_past, Frame.isRoot_past]
      show (shareOut g source f.after bs).mapError _ >>= _ = _
      cases shareOut g source f.after bs with
      | error fault => rfl
      | ok shares =>
        refine congrArg (fun a ↦ drafted g source stop (.on stack a)) ?_
        have hlength : ((b :: bs).flatMap Block.nodes).length =
            b.nodes.length + (0 + (bs.flatMap Block.nodes).length) := by
          rw [List.flatMap_cons, List.length_append, Nat.zero_add]
        rw [hlength, ← Frame.past_advance]
        exact Frame.past_past hf' _ 0 _ _ shares

/-- What the end of a frame adds to the draft. -/
theorem drafted_end (hf : f.SitsIn d) (h : f.rest = []) :
    drafted g source stop ⟨d, f :: stack⟩ = drafted g source stop
      ⟨if f.isRoot then d.grow f.parent [endOfFile stop f.pending] else d, stack⟩ := by
  rw [drafted_cons, step_of_exhausted h, Frame.leave_eq hf.parent]
  rfl

/-- What a leaf at the cursor adds to the draft. -/
theorem drafted_leaf (hf : f.SitsIn d) (h : f.rest = x :: rest) (hx : g.isComment x.node = false)
    (hleaf : x.node.isLeaf = true) :
    drafted g source stop ⟨d, f :: stack⟩ =
      (Span.between? x.node.label.start x.node.label.stop).mapError .span >>= fun span ↦
        drafted g source stop ⟨d.grow f.parent
            [.token (leafType x.node) (leafText source x.node) span f.pending []],
          f.pastLeaf x.node d.nodes.size :: stack⟩ := by
  rw [drafted_cons, step_of_isLeaf h hx hleaf, takeLeaf]
  cases Span.between? x.node.label.start x.node.label.stop with
  | error fault => rfl
  | ok span =>
    show ((d.addToken _ _ _ span f.pending []).mapError Grammar.Fault.draft >>= _) >>= _ = _
    rw [Draft.addToken, Draft.push_leaf hf.parent
      (a := .token (leafType x.node) (leafText source x.node) span f.pending []) rfl]
    rfl

/-- The draft with an interior node under which nothing is yet. -/
def opened (source : ByteArray) (g : Grammar) (d : Draft) (parent : Nat) (c : Concrete)
    (span : Span) : Draft :=
  d.linked (some parent)
    (Draft.newNode c.label.type (g.role c.label.type) (g.declaredName? source c) (some span))

/-- What an interior node at the cursor adds to the draft. -/
theorem drafted_inner (hf : f.SitsIn d) (h : f.rest = x :: rest) (hx : g.isComment x.node = false)
    (hinner : x.node.isLeaf = false) :
    drafted g source stop ⟨d, f :: stack⟩ =
      (Span.between? x.node.label.start x.node.label.stop).mapError .span >>= fun span ↦
        drafted g source stop ⟨opened source g d f.parent x.node span,
          .inner g d.nodes.size x rest :: f.pastInner g x.node :: stack⟩ := by
  rw [drafted_cons, step_of_isInner h hx hinner, takeInner]
  cases Span.between? x.node.label.start x.node.label.stop with
  | error fault => rfl
  | ok span =>
    show ((d.addNode _ _ _ _ span).mapError Grammar.Fault.draft >>= _) >>= _ = _
    rw [Draft.addNode, Draft.push_of_isInterior hf.parent]
    rfl

/-- The frame for an interior node lists what the node holds. -/
theorem map_rest_inner (g : Grammar) (i : Nat) (x : Site) (rest : List Site) :
    (Frame.inner g i x rest).rest.map Site.node = inside g x.node (rest.map Site.node) := by
  show (x.children ++ if g.isAdopting x.node then rest else []).map Site.node = _
  rw [List.map_append, Site.map_node_children, inside]
  split
  · rfl
  · exact List.append_nil _

/-- The frame behind an interior node goes on with what the node leaves. -/
theorem map_rest_pastInner (g : Grammar) (h : f.rest = x :: rest) :
    (f.pastInner g x.node).rest.map Site.node = behind g x.node (rest.map Site.node) := by
  rw [Frame.rest_pastInner g h, behind]
  split <;> rfl

/-- What is laid out under an interior node. -/
theorem grow_opened (d : Draft) (parent : Nat) (c : Concrete) (span : Span)
    (as : List Annotated) :
    (opened source g d parent c span).grow d.nodes.size as = d.grow parent
      [.branch c.label.type (g.role c.label.type) (g.declaredName? source c) span as] :=
  Draft.grow_push _ _ _ _ _

theorem isInterior_opened (d : Draft) (parent : Nat) (c : Concrete) (span : Span) :
    (opened source g d parent c span).IsInterior d.nodes.size := by
  have hlast : (opened source g d parent c span).nodes[d.nodes.size]? = some
      { Draft.newNode c.label.type (g.role c.label.type) (g.declaredName? source c) (some span) with
        parent := some parent } := by
    show ((d.nodes.modify parent _).push _)[d.nodes.size]? = _
    rw [Array.getElem?_push, Array.size_modify, if_pos rfl]
  exact ⟨_, hlast, rfl⟩

/-- What a frame that ends with a gap adds to the draft. -/
theorem drafted_past_end {k : Nat} {shares : List Remark × List Remark} (hf : f.SitsIn d)
    (hpending : f.pending = []) (h : (f.past f.isRoot d k shares).1.rest = []) :
    drafted g source stop (.on stack (f.past f.isRoot d k shares)) = drafted g source stop
      ⟨(d.trail f.token (shares.1.map Remark.trivia)).grow f.parent
        (closing (if f.isRoot then some stop else none) shares.2), stack⟩ := by
  refine (drafted_end (hf.past _ k shares) h).trans ?_
  rw [Frame.isRoot_past]
  cases f.isRoot with
  | true =>
    simp only [Frame.past_true, Frame.wait, Frame.advance, hpending, List.nil_append]
    rfl
  | false => rfl

/-- What a gap and the leaf behind it add to the draft. -/
theorem drafted_past_leaf {k : Nat} {shares : List Remark × List Remark} (hf : f.SitsIn d)
    (hpending : f.pending = []) (h : (f.past true d k shares).1.rest = x :: rest)
    (hx : g.isComment x.node = false) (hleaf : x.node.isLeaf = true) :
    drafted g source stop (.on stack (f.past true d k shares)) =
      (Span.between? x.node.label.start x.node.label.stop).mapError .span >>= fun span ↦
        drafted g source stop
          ⟨(d.trail f.token (shares.1.map Remark.trivia)).grow f.parent
            [.token (leafType x.node) (leafText source x.node) span
              (shares.2.map Remark.trivia) []],
          (f.advance k).pastLeaf x.node (d.trail f.token (shares.1.map Remark.trivia)).nodes.size ::
            stack⟩ := by
  refine (drafted_leaf (hf.past true k shares) h hx hleaf).trans ?_
  simp only [Frame.past_true, Frame.wait, Frame.advance, hpending, List.nil_append]
  rfl

variable (g source stop) in
/-- Whether a frame in front of siblings is read as these are, on top of any stack: the reader lays
out what `Annotated.siblings` yields and goes on with the stack below, or fails with the same fault.
-/
def ReadAs (root : Option Span) (after : Option Int) (cs : List Concrete) : Prop :=
  ∀ (d : Draft) (f : Frame) (stack : List Frame), f.SitsIn d → f.rest.map Site.node = cs →
    f.after = after → root = (if f.isRoot then some stop else none) → f.pending = [] →
    drafted g source stop ⟨d, f :: stack⟩ =
      (siblings g source root after cs).mapError .span >>= fun r ↦
        drafted g source stop ⟨(d.trail f.token r.1).grow f.parent r.2, stack⟩

section

variable {root : Option Span} {after : Option Int} {cs behind : List Concrete} {c : Concrete}
  {blocks : List Block}

/-- A frame is read as its siblings are, if it is from behind the first gap on, however the comments
of the gap have been shared out. -/
theorem readAs_of_gap {next : List Remark × List Remark →
      Except Span.Fault (List Trivia × List Annotated)}
    (gap : Block.leading g source cs = (blocks, behind))
    (hread : siblings g source root after cs = shareOut g source after blocks >>= next)
    (hnext : ∀ (d : Draft) (f : Frame) (stack : List Frame) (k : Nat)
      (shares : List Remark × List Remark), f.SitsIn d →
      root = (if f.isRoot then some stop else none) → f.pending = [] →
      (f.past (hostedBy f.isRoot behind) d k shares).1.rest.map Site.node = behind →
      drafted g source stop (.on stack (f.past (hostedBy f.isRoot behind) d k shares)) =
        (next shares).mapError .span >>= fun r ↦
          drafted g source stop ⟨(d.trail f.token r.1).grow f.parent r.2, stack⟩) :
    ReadAs g source stop root after cs := by
  intro d f stack hf hcs hafter hroot hpending
  subst hcs hafter
  rw [drafted_gap hf gap, hread]
  cases shareOut g source f.after blocks with
  | error fault => rfl
  | ok shares =>
    exact hnext d f stack _ shares hf hroot hpending (Frame.map_rest_past gap _ d shares)

theorem readAs_of_end (gap : Block.leading g source cs = (blocks, [])) :
    ReadAs g source stop root after cs := by
  refine readAs_of_gap gap (siblings_of_gap_end gap) fun d f stack k shares hf hroot hpending hrest ↦
    ?_
  subst hroot
  exact drafted_past_end hf hpending (List.map_eq_nil_iff.1 hrest)

theorem readAs_of_leaf (gap : Block.leading g source cs = (blocks, c :: behind))
    (hleaf : c.isLeaf = true) (hmore : ReadAs g source stop root (some c.label.stop.row) behind) :
    ReadAs g source stop root after cs := by
  refine readAs_of_gap gap (siblings_of_leaf gap hleaf)
    fun d f stack k shares hf hroot hpending hbehind ↦ ?_
  have hhosted : hostedBy f.isRoot (c :: behind) = true := hleaf
  have hcode := Block.isComment_leading_head g source (congrArg Prod.snd gap)
  rw [hhosted] at hbehind ⊢
  obtain ⟨x, rest, hrest, rfl, rfl⟩ := List.map_eq_cons_iff.1 hbehind
  refine (drafted_past_leaf hf hpending hrest hcode hleaf).trans ?_
  rw [Outcome.mapError_bind]
  cases Span.between? x.node.label.start x.node.label.stop with
  | error fault => rfl
  | ok span =>
    have hd := hf.trail f.token (shares.1.map Remark.trivia)
    generalize hlaid : d.trail f.token (shares.1.map Remark.trivia) = laid at hd ⊢
    have hpast : ((f.advance k).pastLeaf x.node laid.nodes.size).SitsIn (laid.grow f.parent
        [.token (leafType x.node) (leafText source x.node) span
          (shares.2.map Remark.trivia) []]) := by
      refine ⟨hd.parent.grow f.parent _, fun i hi ↦ ?_⟩
      cases hi
      exact Draft.isToken_grow_token _ _ _ _ _ _ _
    have hrun := hmore _ _ stack hpast (congrArg _ (Frame.rest_pastLeaf hrest _ _)) rfl hroot rfl
    refine hrun.trans ?_
    show _ = Except.mapError _ (siblings g source _ _ _ >>= _) >>= _
    cases siblings g source root (some x.node.label.stop.row) (rest.map Site.node) with
    | error fault => rfl
    | ok more =>
      refine congrArg (fun d ↦ drafted g source stop ⟨d, stack⟩) ?_
      rw [hlaid]
      exact Draft.grow_trail_grow_token hd.parent.lt _ _ _ _ _ _

theorem readAs_of_inner (gap : Block.leading g source cs = (blocks, c :: behind))
    (hinner : c.isLeaf = false) (hbelow : ReadAs g source stop none none (inside g c behind))
    (hmore : ReadAs g source stop root none (Annotated.behind g c behind)) :
    ReadAs g source stop root after cs := by
  refine readAs_of_gap gap (siblings_of_inner gap hinner)
    fun d f stack k shares hf hroot hpending hbehind ↦ ?_
  have hhosted : hostedBy f.isRoot (c :: behind) = false := hinner
  have hcode := Block.isComment_leading_head g source (congrArg Prod.snd gap)
  rw [hhosted, Frame.past_false] at hbehind ⊢
  obtain ⟨x, rest, hrest, rfl, rfl⟩ := List.map_eq_cons_iff.1 hbehind
  have hd := hf.trail f.token (shares.1.map Remark.trivia)
  have hpast : (f.advance k).SitsIn ((d.trail f.token (shares.1.map Remark.trivia)).grow
      f.parent (shares.2.map anchor)) := hf.past false k shares
  generalize hlaid : (d.trail f.token (shares.1.map Remark.trivia)).grow f.parent
    (shares.2.map anchor) = laid at hpast ⊢
  refine (drafted_inner hpast hrest hcode hinner).trans ?_
  rw [Outcome.mapError_bind]
  cases Span.between? x.node.label.start x.node.label.stop with
  | error fault => rfl
  | ok span =>
    have hentered : (Frame.inner g laid.nodes.size x rest).SitsIn
        (opened source g laid f.parent x.node span) :=
      ⟨isInterior_opened _ _ _ _, fun i hi ↦ by cases hi⟩
    have hrun := hbelow _ _ (.pastInner g (f.advance k) x.node :: stack) hentered
      (map_rest_inner g _ x rest) rfl rfl rfl
    refine hrun.trans ?_
    show _ = Except.mapError _ (siblings g source _ _ _ >>= _) >>= _
    cases siblings g source none none (inside g x.node (rest.map Site.node)) with
    | error fault => rfl
    | ok below =>
      show drafted g source stop ⟨(opened source g laid f.parent x.node span).grow
        laid.nodes.size below.2, _⟩ = _
      rw [grow_opened]
      have hleft : ((f.advance k).pastInner g x.node).SitsIn (laid.grow f.parent
          [.branch x.node.label.type (g.role x.node.label.type)
            (g.declaredName? source x.node) span below.2]) :=
        ⟨hpast.parent.grow _ _, fun i hi ↦ by cases hi⟩
      refine (hmore _ _ stack hleft (map_rest_pastInner g hrest) rfl hroot hpending).trans ?_
      show _ = Except.mapError _ (siblings g source _ _ _ >>= _) >>= _
      cases siblings g source root none (Annotated.behind g x.node (rest.map Site.node)) with
      | error fault => rfl
      | ok more =>
        have hlt : f.parent < laid.nodes.size := hpast.parent.lt
        refine congrArg (fun d ↦ drafted g source stop ⟨d, stack⟩) ?_
        show (laid.grow f.parent _).grow f.parent more.2 = _
        rw [Draft.grow_grow hlt, ← hlaid, Draft.grow_grow hd.parent.lt]
        rfl

end

variable (g source stop) in
/-- **A frame is read as its siblings are**, on top of any stack. -/
theorem readAs_siblings (root : Option Span) (after : Option Int) (cs : List Concrete) :
    ReadAs g source stop root after cs := by
  induction root, after, cs using siblings.induct g source with
  | case1 root after cs blocks gap => exact readAs_of_end gap
  | case2 root after cs blocks c rest gap hw hc hs ihl ihb ihm =>
    cases hleaf : c.isLeaf with
    | true => exact readAs_of_leaf gap hleaf ihl
    | false => exact readAs_of_inner gap hleaf ihb ihm

/-! ### The end of a tree -/

theorem sitsIn_start (language : Language) (type : String) (role : Role) (span : Span)
    (children : List Site) :
    Frame.SitsIn { owner := [], parent := 0, children, isRoot := true }
      (Draft.rooted language type role span) :=
  ⟨⟨_, rfl, rfl⟩, fun i hi ↦ by cases hi⟩

/-- **The reader drafts the tree**, whatever steps it is given beyond those that it needs. -/
theorem draft_read (g : Grammar) (source : ByteArray) (c : Concrete) (n : Nat) :
    (read g source c (2 * c.weight + n)).map (fun r ↦ r.2.draft) =
      (g.tree? source c).map fun t ↦ ⟨t.language, t.nodes⟩ := by
  rw [read, Grammar.tree?_eq]
  cases Span.between? c.label.start c.label.stop with
  | error fault => rfl
  | ok span =>
    have hsits := sitsIn_start g.language c.label.type (g.role c.label.type) span
      (Site.children ⟨[], c⟩)
    have hrun := readAs_siblings g source span (some span) none c.children _ _ [] hsits
      (Site.map_node_children ⟨[], c⟩) rfl rfl rfl
    have heffort := effort_start_le
      (Draft.rooted g.language c.label.type (g.role c.label.type) span) 0 c
    show (steps g source span _ (start (Draft.rooted _ _ _ _) 0 c)).map _ =
      Except.map _ ((Annotated.ofRoot g source span c).mapError _ >>= _)
    rw [steps_eq_of_effort_le (heffort.trans (Nat.le_add_right _ n)) (Nat.le_refl _)]
    refine hrun.trans ?_
    rw [Annotated.ofRoot]
    cases siblings g source (some span) none c.children with
    | error fault => rfl
    | ok r =>
      show drafted g source span ⟨(Draft.rooted _ _ _ _).grow 0 r.2, []⟩ = _
      rw [drafted_nil, Draft.grow_rooted]
      rfl

/-- **The reader comes to its end and takes every node once.** After two steps for each node at most
it has failed as the tree does, or it has left all frames, its draft is the tree, and every node
below the root that is not inside a comment was taken once. -/
theorem read_takesEachOnce (g : Grammar) (source : ByteArray) (c : Concrete) (n : Nat) :
    (∃ fault, read g source c (2 * c.weight + n) = .error fault ∧
        g.tree? source c = .error fault) ∨
      ∃ taken s t, read g source c (2 * c.weight + n) = .ok (taken, s) ∧ s.stack = [] ∧
        s.draft.build = .ok t ∧ g.tree? source c = .ok t ∧ TakesEachOnce g c taken := by
  have hdraft := draft_read g source c n
  cases hread : read g source c (2 * c.weight + n) with
  | error fault =>
    rw [hread] at hdraft
    exact .inl ⟨fault, rfl, Outcome.map_eq_error_iff.1 hdraft.symm⟩
  | ok r =>
    obtain ⟨taken, s⟩ := r
    rw [hread] at hdraft
    obtain ⟨t, htree, hnodes⟩ := Outcome.map_eq_ok_iff.1 hdraft.symm
    have hbuild : s.draft.build = .ok t := by
      have hdrafted : s.draft = ⟨t.language, t.nodes⟩ := hnodes.symm
      rw [hdrafted, Draft.build_eq]
    obtain ⟨span, -, hspan⟩ := Outcome.bind_eq_ok_iff.1 hread
    obtain ⟨root, -, hsteps⟩ := Outcome.bind_eq_ok_iff.1 hspan
    have hover : s.stack = [] :=
      isOver_of_steps ((effort_start_le _ _ c).trans (Nat.le_add_right _ n)) hsteps
    exact .inr ⟨taken, s, t, rfl, hover, hbuild, htree, (runs_of_steps hsteps).takesEachOnce hover⟩

/-- In the small file the namespace adopts what is behind it: its frame goes on with the siblings of
the root, and the second line of documentation is taken with the first. -/
example : (read .csharp Concrete.sampleText.toUTF8 Concrete.sample 30).toOption.map
      (fun r ↦ r.1.map fun t ↦ (t.site.address, t.frame, t.way)) =
    some [([0], [], .inner), ([0, 0], [0], .token), ([0, 1], [0], .token), ([0, 2], [0], .token),
      ([1], [0], .comment), ([2], [0], .line), ([3], [0], .inner), ([3, 0], [3], .token),
      ([3, 1], [3], .token), ([3, 2], [3], .inner), ([3, 2, 0], [3, 2], .token),
      ([3, 2, 1], [3, 2], .token), ([4], [0], .comment)] := by
  decide +kernel

end Reader

end CommentScope
