import CommentScope.Proofs.Links
import CommentScope.Proofs.SourceOrder

/-!
# Reading leaves the code alone

Without its comments, and with adopted siblings below the nodes that adopt them, a concrete tree is
a tree of code. The tree that is read from it is the same tree of code, once the tokens that were
inserted for comments are left out (`Grammar.tree_keeps_code`). Inserted tokens are known by their
types, so it matters that no node of the concrete tree is of one of these types, or of none.

The tree of an arena is put together from the parent links, which reach every node; the child lists
agree with them.
-/

namespace CommentScope

/-- A tree of code: what a node says of itself, and what is below it. -/
inductive Code where
  | mk (entry : Entry) (below : List Code)

/-- Whether an entry is, by its type, that of a token which was inserted. -/
def Entry.isInserted (e : Entry) : Bool :=
  e.type == Filler.anchor.type || e.type == Filler.endOfFile.type

/-- Whether a type is neither empty nor that of inserted tokens. -/
def IsOwnType (type : String) : Prop := type ∉ ["", Filler.anchor.type, Filler.endOfFile.type]

instance (type : String) : Decidable (IsOwnType type) := inferInstanceAs (Decidable (type ∉ _))

/-- A token of the type of a filler counts as inserted. -/
theorem Entry.isInserted_of_type {e : Entry} {filler : Filler} (h : e.type = filler.type) :
    e.isInserted = true := by
  rw [Entry.isInserted, h]
  cases filler <;> rfl

/-- A token that is given a type has this type. -/
theorem Draft.tokenType_of_ne_empty {type : String} (h : type ≠ "") (text : String) :
    tokenType (some type) text = type :=
  if_neg fun hempty ↦ h (String.isEmpty_iff.1 hempty)

namespace IsOwnType

variable {type : String}

theorem ne_filler (h : IsOwnType type) (filler : Filler) : type ≠ filler.type := by
  rintro rfl
  cases filler <;> exact absurd h (by decide)

theorem isInserted_eq_false {e : Entry} (h : IsOwnType e.type) : e.isInserted = false := by
  have hanchor := beq_eq_false_iff_ne.2 (h.ne_filler .anchor)
  have hend := beq_eq_false_iff_ne.2 (h.ne_filler .endOfFile)
  rw [Entry.isInserted, hanchor, hend]
  rfl

theorem tokenType_eq (h : IsOwnType type) (text : String) :
    Draft.tokenType (some type) text = type := by
  refine Draft.tokenType_of_ne_empty ?_ text
  rintro rfl
  exact absurd h (by decide)

/-- Missing leaves have a type of their own as well. -/
theorem leafType {c : Concrete} (h : IsOwnType c.label.type) :
    IsOwnType (Annotated.leafType c) := by
  rw [Annotated.leafType]
  split
  · decide
  · exact h

end IsOwnType

/-! ### Code of a concrete tree -/

namespace Arranged

variable (g : Grammar) (source : ByteArray)

/-- The entry of a leaf that has a type: a token with the text of the leaf. -/
def entryOfToken? (c : Concrete) : Except Span.Fault Entry :=
  (Span.between? c.label.start c.label.stop).map fun span ↦
    ⟨Annotated.leafType c, .nothing, none, span, some (Annotated.leafText source c)⟩

mutual

/-- The code in a piece of syntax. Comments are left out. -/
def code? : Arranged → Except Span.Fault (List Code)
  | .comment _ => .ok []
  | .leaf c => do
    let e ← entryOfToken? source c
    pure [⟨e, []⟩]
  | .inner c below => do
    let e ← entryOfInner? g source c
    let codes ← codeAll? below
    pure [⟨e, codes⟩]

/-- The code in pieces of syntax, one after the other. -/
def codeAll? : List Arranged → Except Span.Fault (List Code)
  | [] => .ok []
  | x :: xs => do
    let codes ← code? x
    let more ← codeAll? xs
    pure (codes ++ more)

end

end Arranged

/-- The code of a concrete tree. The root is an interior node even if there is no code below it. -/
def Concrete.code? (g : Grammar) (source : ByteArray) (c : Concrete) : Except Span.Fault Code := do
  let e ← Arranged.entryOfRoot? g c
  let below ← Arranged.codeAll? g source (Arranged.ofRoot g source c)
  pure ⟨e, below⟩

namespace Arranged

open Outcome

variable {g : Grammar} {source : ByteArray}

theorem codeAll?_cons_eq_ok {x : Arranged} {xs : List Arranged} {codes more : List Code}
    (hx : code? g source x = .ok codes) (hxs : codeAll? g source xs = .ok more) :
    codeAll? g source (x :: xs) = .ok (codes ++ more) := by
  rw [codeAll?, hx, hxs]
  rfl

/-- Comments in front of pieces of syntax make no difference to the code. -/
theorem codeAll?_comments_append (blocks : List Block) (xs : List Arranged) :
    codeAll? g source (blocks.map .comment ++ xs) = codeAll? g source xs := by
  induction blocks with
  | nil => rfl
  | cons b blocks ih =>
    rw [List.map_cons, List.cons_append, codeAll?, ih, code?]
    show (codeAll? g source xs).bind (fun more ↦ .ok ([] ++ more)) = _
    cases codeAll? g source xs <;> rfl

end Arranged

/-! ### Code of syntax with comments attached -/

namespace Annotated

/-- The code of a node, unless the node is inserted. -/
def kept (e : Entry) (below : List Code) : List Code := if e.isInserted then [] else [⟨e, below⟩]

mutual

/-- The code in a piece of syntax, without inserted tokens. -/
def code : Annotated → List Code
  | .token type text span _ _ =>
    kept ⟨Draft.tokenType (some type) text, .nothing, none, span, some text⟩ []
  | .inserted .. => []
  | .branch type role name span as => kept ⟨type, role, name, span, none⟩ (codeAll as)

/-- The code in pieces of syntax, one after the other. -/
def codeAll : List Annotated → List Code
  | [] => []
  | a :: as => code a ++ codeAll as

end

/-- Inserted tokens have the type of their filler. -/
theorem type_inserted (filler : Filler) : Draft.tokenType (some filler.type) "" = filler.type := by
  cases filler <;> rfl

theorem code_eq (parent : Option Nat) (i : Nat) (a : Annotated) :
    a.code = kept (a.head parent i).entry (codeAll a.children) := by
  cases a with
  | inserted filler line column leading =>
    have htype : ((Annotated.inserted filler line column leading).head parent i).entry.type =
        filler.type := type_inserted filler
    rw [kept, if_pos (Entry.isInserted_of_type htype), code]
  | _ => rfl

theorem codeAll_append (as bs : List Annotated) :
    codeAll (as ++ bs) = codeAll as ++ codeAll bs := by
  induction as with
  | nil => rfl
  | cons a as ih => rw [List.cons_append, codeAll, codeAll, ih, List.append_assoc]

theorem codeAll_anchors (rs : List Remark) : codeAll (rs.map anchor) = [] := by
  induction rs with
  | nil => rfl
  | cons r rs ih => rw [List.map_cons, codeAll, ih]; rfl

theorem codeAll_closing (root : Option Span) (free : List Remark) :
    codeAll (closing root free) = [] := by
  cases root with
  | none => exact codeAll_anchors free
  | some s => rfl

/-- A node of its own type is kept. -/
theorem kept_of_isOwnType {e : Entry} (h : IsOwnType e.type) (below : List Code) :
    kept e below = [⟨e, below⟩] := by
  rw [kept, h.isInserted_eq_false]
  rfl

open Outcome

/-- Whether all nodes that are met among siblings have types of their own. -/
def OwnTypes (g : Grammar) (source : ByteArray) (cs : List Concrete) : Prop :=
  ∀ l ∈ Arranged.landmarksAll (Arranged.ofSiblings g source cs), ∀ n ∈ l.nodes,
    IsOwnType n.label.type

variable {g : Grammar} {source : ByteArray}

namespace OwnTypes

variable {cs rest : List Concrete} {c : Concrete} {blocks : List Block}

/-- The types of a leaf and of the siblings behind it. -/
theorem leaf (h : OwnTypes g source cs) (gap : Block.leading g source cs = (blocks, c :: rest))
    (hl : c.isLeaf = true) : IsOwnType (leafType c) ∧ OwnTypes g source rest := by
  rw [OwnTypes, Arranged.ofSiblings_of_leading_leaf gap hl, Arranged.landmarksAll_append] at h
  have hc := h (.leaf c) (List.mem_append_right _ List.mem_cons_self) c List.mem_cons_self
  refine ⟨hc.leafType, fun l hl ↦ ?_⟩
  exact h l (List.mem_append_right _ (List.mem_cons_of_mem _ hl))

/-- The types of an interior node, of what it holds, and of the siblings that are left behind it. -/
theorem inner (h : OwnTypes g source cs) (gap : Block.leading g source cs = (blocks, c :: rest))
    (hl : c.isLeaf = false) :
    IsOwnType c.label.type ∧ OwnTypes g source (inside g c rest) ∧
      OwnTypes g source (behind g c rest) := by
  rw [OwnTypes, Arranged.ofSiblings_of_leading_inner gap hl, Arranged.landmarksAll_append,
    Arranged.landmarksAll, Arranged.landmarks] at h
  refine ⟨?_, fun l hl ↦ ?_, fun l hl ↦ ?_⟩
  · exact h (.inner c) (List.mem_append_right _ List.mem_cons_self) c List.mem_cons_self
  · exact h l (List.mem_append_right _ (List.mem_cons_of_mem _ (List.mem_append_left _ hl)))
  · exact h l (List.mem_append_right _ (List.mem_cons_of_mem _ (List.mem_append_right _ hl)))

/-- All nodes of a concrete tree have types of their own, so those that are met in it have. -/
theorem of_nodes {c : Concrete} (hown : ∀ n ∈ c.nodes, IsOwnType n.label.type) :
    OwnTypes g source c.children := by
  intro l hl n hn
  exact hown n (Concrete.mem_nodes_of_mem_landmarks (List.mem_cons_of_mem _ hl) hn)

end OwnTypes

/-- **Reading siblings leaves their code alone** if the nodes among them have types of their own. -/
theorem Reads.code {root : Option Span} {after : Option Int} {cs : List Concrete}
    {lead : List Trivia} {as : List Annotated} (h : Reads g source root after cs lead as)
    (hown : OwnTypes g source cs) :
    Arranged.codeAll? g source (Arranged.ofSiblings g source cs) = .ok (codeAll as) := by
  induction h with
  | @last root after cs blocks trailing free gap shares =>
    rw [Arranged.ofSiblings_of_leading_nil gap, ← List.append_nil (blocks.map _),
      Arranged.codeAll?_comments_append, codeAll_closing]
    rfl
  | @leaf root after cs rest c blocks trailing free span lead as gap shares place isLeaf more ih =>
    obtain ⟨hc, hrest⟩ := hown.leaf gap isLeaf
    have hentry : Arranged.entryOfToken? source c =
        .ok ⟨leafType c, .nothing, none, span, some (leafText source c)⟩ :=
      map_eq_ok_iff.2 ⟨span, place, rfl⟩
    rw [Arranged.ofSiblings_of_leading_leaf gap isLeaf, Arranged.codeAll?_comments_append, codeAll,
      Annotated.code, hc.tokenType_eq, kept_of_isOwnType hc]
    refine Arranged.codeAll?_cons_eq_ok ?_ (ih hrest)
    rw [Arranged.code?, hentry]
    rfl
  | @inner root after cs rest c blocks trailing free span leadBelow lead below as gap shares place
      isInner hbelow hmore ihb ihm =>
    obtain ⟨hc, hinside, hbehind⟩ := hown.inner gap isInner
    rw [Arranged.ofSiblings_of_leading_inner gap isInner, Arranged.codeAll?_comments_append,
      codeAll_append, codeAll_anchors, List.nil_append, codeAll, Annotated.code,
      kept_of_isOwnType hc]
    refine Arranged.codeAll?_cons_eq_ok ?_ (ihm hbehind)
    rw [Arranged.code?, Arranged.entryOfInner?_eq_ok place, ihb hinside]
    rfl

end Annotated

/-! ### Code of an arena -/

namespace Tree

open Annotated

variable (t : Tree)

/-- The nodes below a node that are not inserted. -/
def keptBelow (i : Fin t.size) : List (Fin t.size) :=
  (t.below i).filter fun j ↦ !(t.node j).entry.isInserted

variable {t} in
theorem lt_of_mem_keptBelow {i j : Fin t.size} (h : j ∈ t.keptBelow i) : i < j :=
  lt_of_mem_below (List.mem_filter.1 h).1

/-- The code at a node, without inserted tokens. -/
def codeAt (i : Fin t.size) : Code :=
  ⟨(t.node i).entry, (t.keptBelow i).attach.map fun j ↦ codeAt j.val⟩
termination_by t.size - i
decreasing_by
  have hlt := Fin.lt_def.1 (lt_of_mem_keptBelow j.property)
  omega

/-- The code of a tree. -/
def code : Code := t.codeAt t.root

theorem codeAt_eq (i : Fin t.size) :
    t.codeAt i = ⟨(t.node i).entry, (t.keptBelow i).map t.codeAt⟩ := by
  rw [codeAt, List.attach_map_val]

variable {t}

theorem refs_injective {is js : List Nat} (h : refs is = refs js) : is = js := by
  have hlist := congrArg Array.toList h
  exact List.map_injective_iff.2 (fun _ _ ↦ Int.ofNat.inj) hlist

/-- **The code of laid out syntax** is that of the syntax, if nodes list what is below them. -/
theorem codeAt_lies (hlinks : ∀ i, refs ((t.below i).map Fin.val) = (t.node i).children)
    {parent : Option Nat} {i : Nat} {as : List Annotated} (h : t.Lies parent i as)
    {is : List (Fin t.size)} (his : is.map Fin.val = starts i as) :
    (is.filter fun j ↦ !(t.node j).entry.isInserted).map t.codeAt = codeAll as := by
  induction as using forest_induction generalizing parent i is with
  | nil =>
    rw [List.map_eq_nil_iff.1 his]
    rfl
  | cons a as ihc ih =>
    obtain ⟨j, js, rfl, rfl, hjs⟩ := List.map_eq_cons_iff.1 his
    have hnode : t.node j = a.head parent j := h.node
    have hbelow : (t.below j).map Fin.val = starts (j + 1) a.children := by
      refine refs_injective ?_
      rw [hlinks, hnode, children_head]
    have hcode : t.codeAt j = ⟨(a.head parent j).entry, codeAll a.children⟩ := by
      rw [codeAt_eq, keptBelow, ihc h.below hbelow, hnode]
    rw [codeAll, code_eq parent j a, kept, List.filter_cons, hnode]
    cases hi : (a.head parent j).entry.isInserted with
    | true => exact ih h.behind hjs
    | false =>
      show t.codeAt j :: (js.filter _).map t.codeAt = _
      rw [hcode, ih h.behind hjs]
      rfl

/-- The code of a laid out tree. -/
theorem code_toTree (language : Option Language) (type : String) (role : Role)
    (name : Option String) (span : Span) (as : List Annotated) :
    (toTree language (.branch type role name span as)).code =
      ⟨⟨type, role, name, span, none⟩, codeAll as⟩ := by
  have hlies := lies_toTree language (.branch type role name span as)
  have hroot : (toTree language (.branch type role name span as)).node (root _) =
      (Annotated.branch type role name span as).head none 0 :=
    hlies.node
  have hlinks := refs_below language (.branch type role name span as)
  have hbelow : ((toTree language (.branch type role name span as)).below (root _)).map Fin.val =
      starts 1 as := by
    refine refs_injective ?_
    rw [hlinks, hroot]
    rfl
  rw [code, codeAt_eq, keptBelow, codeAt_lies hlinks hlies.below hbelow, hroot]
  rfl

end Tree

/-! ### The end of a tree -/

namespace Annotated

/-- Whether no node of laid out syntax is of the type of the end-of-file token. -/
def Endless (as : List Annotated) : Prop :=
  ∀ parent i, ∀ n ∈ layoutAll parent i as, n.type ≠ Filler.endOfFile.type

theorem endless_append {as bs : List Annotated} (has : Endless as) (hbs : Endless bs) :
    Endless (as ++ bs) := by
  intro parent i n hn
  rw [layoutAll_append] at hn
  rcases List.mem_append.1 hn with hn | hn
  · exact has parent i n hn
  · exact hbs parent _ n hn

theorem endless_cons {a : Annotated} {as : List Annotated}
    (ha : ∀ parent i, (a.head parent i).type ≠ Filler.endOfFile.type) (hbelow : Endless a.children)
    (has : Endless as) : Endless (a :: as) := by
  intro parent i n hn
  rw [layoutAll, layout_eq_cons, List.cons_append, List.mem_cons, List.mem_append] at hn
  rcases hn with rfl | hn | hn
  · exact ha parent i
  · exact hbelow _ _ n hn
  · exact has parent _ n hn

theorem endless_nil : Endless [] := fun _ _ _ hn ↦ absurd hn List.not_mem_nil

theorem endless_anchors (rs : List Remark) : Endless (rs.map anchor) := by
  induction rs with
  | nil => exact endless_nil
  | cons r rs ih =>
    refine endless_cons (fun parent i ↦ ?_) endless_nil ih
    show Draft.tokenType (some Filler.anchor.type) "" ≠ _
    rw [type_inserted]
    decide

/-- **Siblings end once**: what they are read as closes with what stands at their end, and has no
end-of-file token before it. -/
theorem Reads.closes {root : Option Span} {after : Option Int} {cs : List Concrete}
    {lead : List Trivia} {as : List Annotated} (h : Reads g source root after cs lead as)
    (hown : OwnTypes g source cs) :
    ∃ front free, as = front ++ closing root free ∧ Endless front := by
  induction h with
  | @last root after cs blocks trailing free gap shares =>
    exact ⟨[], free, rfl, endless_nil⟩
  | @leaf root after cs rest c blocks trailing free span lead as gap shares place isLeaf more ih =>
    obtain ⟨hc, hrest⟩ := hown.leaf gap isLeaf
    obtain ⟨front, free, rfl, hfront⟩ := ih hrest
    refine ⟨_ :: front, free, rfl, endless_cons (fun parent i ↦ ?_) endless_nil hfront⟩
    show Draft.tokenType (some (leafType c)) _ ≠ _
    rw [hc.tokenType_eq]
    exact hc.ne_filler .endOfFile
  | @inner root after cs rest c blocks trailing free span leadBelow lead below as gap shares place
      isInner hbelow hmore ihb ihm =>
    obtain ⟨hc, hinside, hbehind⟩ := hown.inner gap isInner
    obtain ⟨inside, anchors, rfl, hends⟩ := ihb hinside
    obtain ⟨front, more, rfl, hfront⟩ := ihm hbehind
    refine ⟨free.map anchor ++ _ :: front, more, (List.append_assoc _ (_ :: front) _).symm, ?_⟩
    refine endless_append (endless_anchors free) (endless_cons (fun _ _ ↦ ?_) ?_ hfront)
    · exact hc.ne_filler .endOfFile
    · -- Below an interior node there is no end of the root.
      exact endless_append hends (endless_anchors anchors)

end Annotated

namespace Tree

open Annotated

variable {t : Tree}

/-- The last node of a tree, if it is the only one that ends the tree. -/
theorem exists_last {front : List Node} {last : Node} (h : t.nodes.toList = front ++ [last])
    (hfront : ∀ n ∈ front, n.type ≠ Filler.endOfFile.type)
    (hlast : last.type = Filler.endOfFile.type) :
    ∃ e : Fin t.size, t.node e = last ∧ (∀ i, i ≤ e) ∧
      ∀ i, (t.node i).type = Filler.endOfFile.type ↔ i = e := by
  have hsize : t.size = front.length + 1 := by
    rw [size, ← Array.length_toList, h, List.length_append]
    rfl
  have hget : ∀ i : Fin t.size, (front ++ [last])[i.val]? = some (t.node i) := by
    intro i
    rw [← h, Array.getElem?_toList]
    exact Array.getElem?_eq_getElem i.isLt
  have hnode : t.node ⟨front.length, by omega⟩ = last := by
    have hend := hget ⟨front.length, by omega⟩
    rw [List.getElem?_concat_length] at hend
    exact (Option.some.inj hend).symm
  refine ⟨⟨front.length, by omega⟩, hnode, fun i ↦ ?_, fun i ↦ ⟨fun hi ↦ ?_, ?_⟩⟩
  · show i.val ≤ front.length
    have hlt := i.isLt
    omega
  · by_contra hne
    have hlt : i.val < front.length := by
      have hlt := i.isLt
      have hval : i.val ≠ front.length := fun hval ↦ hne (Fin.ext hval)
      omega
    have hmem := hget i
    rw [List.getElem?_append_left hlt] at hmem
    exact hfront _ (List.mem_of_getElem? hmem) hi
  · rintro rfl
    rw [hnode, hlast]

/-- Interior nodes carry no trivia, and nothing is below a token. -/
theorem node_toTree (language : Option Language) (root : Annotated)
    (i : Fin (root.toTree language).size) :
    let n := (root.toTree language).node i
    (n.isToken = true → n.children = #[]) ∧
      (n.isToken = false → n.leading = [] ∧ n.trailing = []) := by
  intro n
  have hmem : n ∈ layoutAll none 0 [root] := by
    rw [← nodes_toTree language]
    exact Array.getElem_mem_toList i.isLt
  obtain ⟨parent, k, a, ha⟩ := exists_head_of_mem_layoutAll hmem
  rw [ha]
  cases a with
  | branch => exact ⟨fun h ↦ absurd h Bool.false_ne_true, fun _ ↦ ⟨rfl, rfl⟩⟩
  | _ => exact ⟨fun _ ↦ rfl, fun h ↦ absurd h.symm Bool.false_ne_true⟩

end Tree

/-! ### Trees of concrete trees -/

namespace Grammar

open Annotated Concrete

variable {g : Grammar} {source : ByteArray} {c : Concrete} {t : Tree}

/-- The code of a concrete tree is that of the tree which is read from it. -/
theorem code?_eq_ok (hown : ∀ n ∈ c.nodes, IsOwnType n.label.type) (h : g.tree? source c = .ok t) :
    c.code? g source = .ok t.code := by
  obtain ⟨span, below, hspan, hbelow, rfl⟩ := (tree?_eq_ok_iff g source).1 h
  obtain ⟨⟨lead, as⟩, hsiblings, rfl⟩ := Outcome.map_eq_ok_iff.1 hbelow
  have hcode := (reads_of_siblings hsiblings).code (.of_nodes hown)
  rw [Tree.code_toTree, Concrete.code?, Arranged.entryOfRoot?_eq_ok hspan, Arranged.ofRoot, hcode]
  rfl

/-- The nodes of a tree, from the first to the end-of-file token. -/
theorem exists_nodes_eq (hown : ∀ n ∈ c.nodes, IsOwnType n.label.type)
    (h : g.tree? source c = .ok t) :
    ∃ front last, t.nodes.toList = front ++ [last] ∧
      (∀ n ∈ front, n.type ≠ Filler.endOfFile.type) ∧ last.type = Filler.endOfFile.type ∧
      last.parent = some 0 ∧ last.text = some "" ∧
      last.span.start = c.label.stop ∧ last.span.stop = c.label.stop := by
  obtain ⟨span, below, hspan, hbelow, rfl⟩ := (tree?_eq_ok_iff g source).1 h
  obtain ⟨⟨lead, as⟩, hsiblings, rfl⟩ := Outcome.map_eq_ok_iff.1 hbelow
  obtain ⟨front, free, rfl, hfront⟩ := (reads_of_siblings hsiblings).closes (.of_nodes hown)
  have hroot : IsOwnType c.label.type := hown c c.self_mem_nodes
  have hstop : span.stop = c.label.stop := (Span.between?_eq_ok hspan).2
  refine ⟨(branch c.label.type (g.role c.label.type) none span
      (front ++ closing (some span) free)).head none 0 :: layoutAll (some 0) 1 front,
    (endOfFile span (free.map Remark.trivia)).head (some 0) (1 + sizeAll front),
    ?_, ?_, type_inserted .endOfFile, rfl, rfl, hstop, hstop⟩
  · show layout none 0 (branch _ _ _ _ (front ++ closing (some span) free)) = _
    rw [layout, layoutAll_append]
    rfl
  · intro n hn
    rcases List.mem_cons.1 hn with rfl | hn
    · exact hroot.ne_filler .endOfFile
    · exact hfront (some 0) 1 n hn

/-- **Reading a tree leaves the code alone.** Let no node of a concrete tree have an empty type or
one of inserted tokens. Then the code of the concrete tree is that of the tree which is read from
it. The children of a node are the nodes whose parent it is, tokens have none, and interior nodes
carry no trivia. There is one end-of-file token, empty and at the end of the root: the last child
of the root and the last of all tokens. -/
theorem tree_keeps_code (hown : ∀ n ∈ c.nodes, IsOwnType n.label.type)
    (h : g.tree? source c = .ok t) :
    c.code? g source = .ok t.code ∧
      (∀ i, t.children? i = some (t.below i)) ∧
      (∀ i, (t.node i).isToken = true → t.below i = []) ∧
      (∀ i, (t.node i).isToken = false → (t.node i).leading = [] ∧ (t.node i).trailing = []) ∧
      ∃ e, (∀ i, (t.node i).type = Filler.endOfFile.type ↔ i = e) ∧
        (t.node e).text = some "" ∧
        (t.node e).span.start = c.label.stop ∧ (t.node e).span.stop = c.label.stop ∧
        (t.below t.root).getLast? = some e ∧
        (t.tokensOf (t.walk false).events).getLast? = some e := by
  have hcode := code?_eq_ok hown h
  obtain ⟨front, last, hnodes, hfront, htype, hparent, htext, hstart, hstop⟩ :=
    exists_nodes_eq hown h
  obtain ⟨e, rfl, hlast, honly⟩ := Tree.exists_last hnodes hfront htype
  obtain ⟨span, below, hspan, hbelow, rfl⟩ := (tree?_eq_ok_iff g source).1 h
  refine ⟨hcode, Tree.children?_toTree _ _, fun i hi ↦ ?_, fun i ↦ (Tree.node_toTree _ _ i).2,
    e, honly, htext, hstart, hstop, ?_, ?_⟩
  · have hlinks := Tree.refs_below _ _ i
    rw [(Tree.node_toTree _ _ i).1 hi] at hlinks
    have hnil := Tree.refs_injective (hlinks.trans (show #[] = refs [] from rfl))
    exact List.map_eq_nil_iff.1 hnil
  · have hroot := Tree.val_parent? _ e
    rw [hparent] at hroot
    obtain ⟨p, hp, hval⟩ := Option.map_eq_some_iff.1 hroot
    have hp0 : p = Tree.root _ := Fin.ext hval
    rw [Tree.below]
    refine Tree.getLast?_filter_finRange ?_ hlast
    rw [hp, hp0]
    exact beq_self_eq_true _
  · rw [Tree.tokensOf_walk]
    refine Tree.getLast?_filter_finRange ?_ hlast
    rw [Node.isToken, htext]
    rfl

/-- The small file keeps its code. -/
theorem tree_sample_keeps_code : (∀ n ∈ sample.nodes, IsOwnType n.label.type) ∧
    ∃ t, csharp.tree? sampleText.toUTF8 sample = .ok t ∧
      sample.code? csharp sampleText.toUTF8 = .ok t.code ∧
      ∀ i, t.children? i = some (t.below i) := by
  obtain ⟨t, ht⟩ := Outcome.exists_eq_ok sample_isOk
  have hown : ∀ n ∈ sample.nodes, IsOwnType n.label.type := by decide
  obtain ⟨hcode, hchildren, -⟩ := tree_keeps_code hown ht
  exact ⟨hown, t, ht, hcode, hchildren⟩

end Grammar

end CommentScope
