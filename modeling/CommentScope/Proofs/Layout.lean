import CommentScope.Proofs.Outcome
import CommentScope.Tree.Lowering

/-!
# How syntax lies in an arena

A piece of syntax takes as many consecutive nodes of an arena as it has parts: first its own, then
those of its children, one after the other. `Annotated.layout` writes these nodes down without a
draft, and `Draft.attachAll_eq` says that laying syntax out in a draft yields just them. No check of
the draft ever fails on the way (`Grammar.tree?_eq`): a concrete tree that cannot be read has a
position or a comment that cannot be read.
-/

namespace CommentScope

namespace Annotated

mutual

/-- The number of nodes that a piece of syntax takes. -/
def size : Annotated → Nat
  | .token .. => 1
  | .inserted .. => 1
  | .branch _ _ _ _ as => sizeAll as + 1

/-- The number of nodes that pieces of syntax take together. -/
def sizeAll : List Annotated → Nat
  | [] => 0
  | a :: as => size a + sizeAll as

end

/-- The positions at which pieces of syntax start, if the first of them starts at `i`. -/
def starts (i : Nat) : List Annotated → List Nat
  | [] => []
  | a :: as => i :: starts (i + a.size) as

/-- The positions of nodes, as they stand in a list of children. -/
def refs (is : List Nat) : Array Int := (is.map Int.ofNat).toArray

/-- The node of a piece of syntax that starts at `i`, without those of its children. -/
def head (parent : Option Nat) (i : Nat) : Annotated → Node
  | .token type text span leading trailing => {
      type := Draft.tokenType (some type) text, role := .nothing, parent, children := #[], span
      name := none, text := some text, leading, trailing }
  | .inserted filler line column leading => {
      type := Draft.tokenType (some filler.type) "", role := .nothing, parent, children := #[]
      span := .emptyAt line column, name := none, text := some "", leading, trailing := [] }
  | .branch type role name span as => {
      type, role, parent, children := refs (starts (i + 1) as), span, name, text := none
      leading := [], trailing := [] }

mutual

/-- The nodes of a piece of syntax that starts at `i`. -/
def layout (parent : Option Nat) (i : Nat) : Annotated → List Node
  | .token type text span leading trailing =>
    [head parent i (.token type text span leading trailing)]
  | .inserted filler line column leading =>
    [head parent i (.inserted filler line column leading)]
  | .branch type role name span as =>
    head parent i (.branch type role name span as) :: layoutAll (some i) (i + 1) as

/-- The nodes of pieces of syntax of which the first starts at `i`. -/
def layoutAll (parent : Option Nat) (i : Nat) : List Annotated → List Node
  | [] => []
  | a :: as => layout parent i a ++ layoutAll parent (i + a.size) as

end

/-- What is directly below the top of a piece of syntax. -/
def children : Annotated → List Annotated
  | .branch _ _ _ _ as => as
  | _ => []

theorem size_eq (a : Annotated) : a.size = sizeAll a.children + 1 := by
  cases a <;> rfl

theorem layout_eq_cons (parent : Option Nat) (i : Nat) (a : Annotated) :
    a.layout parent i = a.head parent i :: layoutAll (some i) (i + 1) a.children := by
  cases a <;> rfl

/-- **Induction over siblings and what is below them**: what holds of no siblings, and of siblings
whenever it holds of the children of the first and of the siblings behind it, holds of all. -/
@[elab_as_elim]
theorem forest_induction {motive : List Annotated → Prop} (nil : motive [])
    (cons : ∀ a as, motive a.children → motive as → motive (a :: as)) (as : List Annotated) :
    motive as := by
  induction h : sizeAll as using Nat.strongRecOn generalizing as with
  | ind n ih =>
    cases as with
    | nil => exact nil
    | cons a as =>
      have hs : sizeAll (a :: as) = sizeAll a.children + 1 + sizeAll as := by rw [sizeAll, size_eq]
      exact cons a as (ih _ (by omega) _ rfl) (ih _ (by omega) _ rfl)

theorem length_layoutAll (parent : Option Nat) (i : Nat) (as : List Annotated) :
    (layoutAll parent i as).length = sizeAll as := by
  induction as using forest_induction generalizing parent i with
  | nil => rfl
  | cons a as ihc ih =>
    rw [layoutAll, layout_eq_cons, List.length_append, List.length_cons, ihc, ih, sizeAll, size_eq]

theorem length_layout (parent : Option Nat) (i : Nat) (a : Annotated) :
    (a.layout parent i).length = a.size := by
  rw [layout_eq_cons, List.length_cons, length_layoutAll, size_eq]

theorem starts_append (i : Nat) (as bs : List Annotated) :
    starts i (as ++ bs) = starts i as ++ starts (i + sizeAll as) bs := by
  induction as generalizing i with
  | nil => rfl
  | cons a as ih => simp only [List.cons_append, starts, sizeAll, ih, Nat.add_assoc]

theorem layoutAll_append (parent : Option Nat) (i : Nat) (as bs : List Annotated) :
    layoutAll parent i (as ++ bs) =
      layoutAll parent i as ++ layoutAll parent (i + sizeAll as) bs := by
  induction as generalizing i with
  | nil => rfl
  | cons a as ih =>
    simp only [List.cons_append, layoutAll, sizeAll, ih, Nat.add_assoc, List.append_assoc]

end Annotated

open Annotated

/-! ### Laying out in a draft -/

/-- A node with further children. -/
def Node.withChildren (n : Node) (is : List Nat) : Node :=
  { n with children := n.children ++ refs is }

theorem Node.withChildren_withChildren (n : Node) (is js : List Nat) :
    (n.withChildren is).withChildren js = n.withChildren (is ++ js) := by
  simp [withChildren, refs]

namespace Draft

/-- A draft with pieces of syntax laid out under a parent. -/
def grow (d : Draft) (parent : Nat) (as : List Annotated) : Draft where
  language := d.language
  nodes := d.nodes.modify parent (·.withChildren (starts d.nodes.size as)) ++
    (layoutAll (some parent) d.nodes.size as).toArray

/-- Whether there is a node at a position that may have children. -/
def IsInterior (d : Draft) (i : Nat) : Prop := ∃ n, d.nodes[i]? = some n ∧ n.isToken = false

theorem IsInterior.lt {d : Draft} {i : Nat} (h : d.IsInterior i) : i < d.nodes.size := by
  obtain ⟨n, hn, -⟩ := h
  exact (Array.getElem?_eq_some_iff.1 hn).1

theorem parentOf_of_isInterior {d : Draft} {i : Nat} (h : d.IsInterior i) :
    d.parentOf i = .ok i := by
  obtain ⟨n, hn, ht⟩ := h
  rw [parentOf, if_pos (Int.natCast_nonneg i), Int.toNat_natCast, hn]
  simp [ht]

theorem push_of_isInterior {d : Draft} {i : Nat} (h : d.IsInterior i) (n : Node) :
    d.push (some (i : Int)) n = .ok (d.nodes.size, ⟨d.language,
      (d.nodes.modify i (·.withChildren [d.nodes.size])).push { n with parent := some i }⟩) := by
  simp only [push, parentOf_of_isInterior h]
  rfl

/-- Modifying an entry of the front part of a list leaves the back part alone. -/
theorem modify_append_of_lt {α : Type} (f : α → α) {i : Nat} {l : List α} (m : List α)
    (h : i < l.length) : (l ++ m).modify i f = l.modify i f ++ m := by
  induction l generalizing i with
  | nil => simp at h
  | cons a l ih =>
    cases i with
    | zero => rfl
    | succ i =>
      rw [List.cons_append, List.modify_succ_cons, List.modify_succ_cons, List.cons_append,
        ih (Nat.lt_of_succ_lt_succ h)]

theorem ext_toList {d e : Draft} (hl : d.language = e.language)
    (hn : d.nodes.toList = e.nodes.toList) : d = e := by
  obtain ⟨dl, dn⟩ := d
  obtain ⟨el, en⟩ := e
  cases hl
  cases Array.toList_inj.1 hn
  rfl

theorem grow_nil (d : Draft) (parent : Nat) : d.grow parent [] = d := by
  refine ext_toList rfl ?_
  have hid : (fun n : Node ↦ n.withChildren []) = id := by
    funext n
    simp [Node.withChildren, refs]
  simp [grow, starts, layoutAll, hid]

theorem size_grow (d : Draft) (parent : Nat) (as : List Annotated) :
    (d.grow parent as).nodes.size = d.nodes.size + sizeAll as := by
  simp [grow, length_layoutAll]

/-- **Laying out continues where it stopped.** -/
theorem grow_grow {d : Draft} {parent : Nat} (h : parent < d.nodes.size) (as bs : List Annotated) :
    (d.grow parent as).grow parent bs = d.grow parent (as ++ bs) := by
  refine ext_toList rfl ?_
  have hsize := size_grow d parent as
  have hstarts : starts d.nodes.size (as ++ bs) =
      starts d.nodes.size as ++ starts (d.nodes.size + sizeAll as) bs := starts_append _ as bs
  have hlayout : layoutAll (some parent) d.nodes.size (as ++ bs) =
      layoutAll (some parent) d.nodes.size as ++
        layoutAll (some parent) (d.nodes.size + sizeAll as) bs := layoutAll_append _ _ as bs
  have hmodify : ∀ n : Node, (n.withChildren (starts d.nodes.size as)).withChildren
      (starts (d.nodes.size + sizeAll as) bs) =
        n.withChildren (starts d.nodes.size (as ++ bs)) := by
    intro n
    rw [hstarts, Node.withChildren_withChildren]
  rw [grow, hsize]
  simp only [grow, Array.toList_append, Array.toList_modify, hlayout]
  rw [modify_append_of_lt _ _ (by simpa using h), List.modify_modify_eq, List.append_assoc]
  congr 2
  funext n
  exact hmodify n

/-- A node stays a token, or stays none, while syntax is laid out, under it or elsewhere. -/
theorem exists_getElem?_grow {d : Draft} {i : Nat} {n : Node} (hn : d.nodes[i]? = some n)
    (parent : Nat) (as : List Annotated) :
    ∃ m, (d.grow parent as).nodes[i]? = some m ∧ m.isToken = n.isToken := by
  have hi := (Array.getElem?_eq_some_iff.1 hn).1
  refine ⟨if parent = i then n.withChildren (starts d.nodes.size as) else n, ?_, by split <;> rfl⟩
  rw [grow, Array.getElem?_append_left (by simpa using hi), Array.getElem?_modify, hn]
  split <;> rfl

theorem IsInterior.grow {d : Draft} {i : Nat} (h : d.IsInterior i) (parent : Nat)
    (as : List Annotated) : (d.grow parent as).IsInterior i := by
  obtain ⟨n, hn, ht⟩ := h
  obtain ⟨m, hm, hmn⟩ := exists_getElem?_grow hn parent as
  exact ⟨m, hm, hmn.trans ht⟩

/-- Modifying the first entry of the back part of a list. -/
theorem modify_append_cons {α : Type} (f : α → α) {i : Nat} {l : List α} (a : α) (m : List α)
    (h : l.length = i) : (l ++ a :: m).modify i f = l ++ f a :: m := by
  subst h
  induction l with
  | nil => rfl
  | cons b l ih =>
    rw [List.cons_append, List.length_cons, List.modify_succ_cons, ih, List.cons_append]

/-- What a draft is once a leaf has been pushed to it. -/
theorem push_leaf {d : Draft} {parent : Nat} (h : d.IsInterior parent) {a : Annotated} {n : Node}
    (ha : a.layout (some parent) d.nodes.size = [{ n with parent := some parent }]) :
    d.push (some (parent : Int)) n = .ok (d.nodes.size, d.grow parent [a]) := by
  rw [push_of_isInterior h]
  congr 2
  refine ext_toList rfl ?_
  simp [grow, layoutAll, ha, starts]

/-- What a draft is once the children of a node just pushed have been laid out as well. -/
theorem grow_push {d : Draft} {parent : Nat} (type : String) (role : Role) (name : Option String)
    (span : Span) (as : List Annotated) :
    grow ⟨d.language, (d.nodes.modify parent (·.withChildren [d.nodes.size])).push {
        type, role, parent := some parent, children := #[], span, name, text := none
        leading := [], trailing := [] }⟩ d.nodes.size as =
      d.grow parent [.branch type role name span as] := by
  refine ext_toList rfl ?_
  have hlen : (d.nodes.toList.modify parent (·.withChildren [d.nodes.size])).length =
      d.nodes.size := by simp
  simp only [grow, Array.toList_append, Array.toList_modify, Array.toList_push, Array.size_push,
    Array.size_modify, layoutAll, layout, starts, List.append_nil]
  rw [modify_append_cons _ _ _ hlen, List.append_assoc]
  simp [Node.withChildren, head]

mutual

/-- **Laying out a piece of syntax** under an interior node is never refused. -/
theorem attach_eq {d : Draft} {parent : Nat} (h : d.IsInterior parent) :
    ∀ a : Annotated, d.attach parent a = .ok (d.grow parent [a])
  | .token type text span leading trailing => by
    rw [attach, addToken, push_leaf h (a := .token type text span leading trailing) rfl]
    rfl
  | .inserted filler line column leading => by
    rw [attach, addToken, push_leaf h (a := .inserted filler line column leading) rfl]
    rfl
  | .branch type role name span as => by
    rw [attach, addNode, push_of_isInterior h]
    refine Eq.trans (attachAll_eq ?_ as) (congrArg Except.ok (grow_push type role name span as))
    -- The node just pushed is the last one, and it has no text.
    refine ⟨{ type, role, parent := some parent, children := #[], span, name, text := none
              leading := [], trailing := [] }, ?_, rfl⟩
    rw [Array.getElem?_push, Array.size_modify, if_pos rfl]

/-- **Laying out pieces of syntax** under an interior node is never refused. -/
theorem attachAll_eq {d : Draft} {parent : Nat} (h : d.IsInterior parent) :
    ∀ as : List Annotated, d.attachAll parent as = .ok (d.grow parent as)
  | [] => by rw [attachAll, grow_nil]
  | a :: as => by
    rw [attachAll, attach_eq h a]
    show attachAll (d.grow parent [a]) parent as = _
    rw [attachAll_eq (h.grow parent [a]) as, grow_grow h.lt, List.singleton_append]

end

end Draft

/-! ### Trees of laid out syntax -/

namespace Annotated

@[simp] theorem parent_head (parent : Option Nat) (i : Nat) (a : Annotated) :
    (a.head parent i).parent = parent := by
  cases a <;> rfl

/-- **Parents stand before their children** in laid out syntax. -/
theorem parent_lt_of_getElem?_layoutAll {p i : Nat} (hp : p < i) {as : List Annotated} {k : Nat}
    {n : Node} (h : (layoutAll (some p) i as)[k]? = some n) :
    ∃ q, n.parent = some q ∧ q < i + k := by
  induction as using forest_induction generalizing p i k with
  | nil => simp [layoutAll] at h
  | cons a as ihc ih =>
    rw [layoutAll, List.getElem?_append, length_layout] at h
    split at h
    · rw [layout_eq_cons] at h
      cases k with
      | zero =>
        cases h
        exact ⟨p, parent_head _ _ _, by omega⟩
      | succ k =>
        obtain ⟨q, hq, hlt⟩ := ihc (Nat.lt_succ_self i) h
        exact ⟨q, hq, by omega⟩
    · obtain ⟨q, hq, hlt⟩ := ih (Nat.lt_add_right a.size hp) h
      exact ⟨q, hq, by omega⟩

/-- The tree that is laid out piece by piece below a root. -/
def toTree (language : Option Language) (root : Annotated) : Tree where
  nodes := (root.layout none 0).toArray
  language
  nonempty := by simp [layout_eq_cons]
  root_parent := by simp [layout_eq_cons]
  parent_before := fun i hi hpos ↦ by
    cases i with
    | zero => omega
    | succ k =>
      have hget : (root.layout none 0)[k + 1]? = some (root.layout none 0).toArray[k + 1] := by
        simp
      generalize (root.layout none 0).toArray[k + 1] = n at hget ⊢
      rw [layout_eq_cons, List.getElem?_cons_succ, Nat.zero_add] at hget
      obtain ⟨q, hq, hlt⟩ := parent_lt_of_getElem?_layoutAll Nat.zero_lt_one hget
      exact ⟨q, hq, by omega⟩

end Annotated

namespace Draft

theorem fault?_row (t : Tree) {i : Nat} (h : i < t.size) :
    Tree.Row.fault? i ⟨i, t.nodes[i].parent.map Int.ofNat, t.nodes[i]⟩ = none := by
  unfold Tree.Row.fault?
  rw [if_neg (by simp)]
  by_cases h0 : i = 0
  · subst h0
    simp [t.root_parent]
  · obtain ⟨p, hp, hlt⟩ := t.parent_before i h (Nat.pos_of_ne_zero h0)
    rw [if_neg h0, hp]
    simp [hlt]

/-- The rows of a tree are accepted, and give the tree back. -/
theorem ofRows_eq_ok {t : Tree} {rows : Array Tree.Row} (hf : Tree.firstFault? rows = none)
    (hn : rows.map Tree.Row.toNode = t.nodes) : Tree.ofRows t.language rows = .ok t := by
  have hsize : 0 < rows.size := by
    have := t.nonempty
    rwa [← hn, Array.size_map] at this
  rw [Tree.ofRows, dif_pos hsize]
  split
  · rename_i f h
    rw [hf] at h
    cases h
  · obtain ⟨nodes, language, _, _, _⟩ := t
    cases hn
    rfl

/-- **Building what was drafted:** a draft with the nodes of a tree builds that tree. -/
theorem build_eq (t : Tree) : build ⟨t.language, t.nodes⟩ = .ok t := by
  have hfault : Tree.firstFault? (rows ⟨t.language, t.nodes⟩) = none := by
    rw [Tree.firstFault?, List.findSome?_eq_none_iff]
    rintro ⟨r, i⟩ hr
    rw [List.mem_zipIdx_iff_getElem?, Array.getElem?_toList] at hr
    obtain ⟨hi, hget⟩ := Array.getElem?_eq_some_iff.1 hr
    have hi' : i < t.size := by simpa [rows] using hi
    have hr' : r = ⟨i, t.nodes[i].parent.map Int.ofNat, t.nodes[i]⟩ := by
      refine hget.symm.trans ?_
      simp [rows]
    exact hr' ▸ fault?_row t hi'
  have hnodes : (rows ⟨t.language, t.nodes⟩).map Tree.Row.toNode = t.nodes := by
    refine Array.ext (by simp [rows]) fun i hi _ ↦ ?_
    have hparent : ∀ p : Option Nat, (p.map Int.ofNat).map Int.toNat = p := by
      intro p
      cases p <;> rfl
    simp only [rows, Array.getElem_map, Array.getElem_mapIdx, Tree.Row.toNode, hparent]
  have hempty : t.nodes.isEmpty = false := by
    rw [Array.isEmpty_eq_false_iff_exists_mem]
    exact ⟨_, Array.getElem_mem t.nonempty⟩
  rw [build, if_neg (by simp [hempty]), ofRows_eq_ok hfault hnodes]
  rfl

end Draft

/-! ### What a concrete tree is read as -/

namespace Draft

/-- The draft that holds a root alone. -/
def rooted (language : Language) (type : String) (role : Role) (span : Span) : Draft :=
  ⟨some language, #[{
    type, role, parent := none, children := #[], span, name := none, text := none
    leading := [], trailing := [] }]⟩

theorem addNode_empty (language : Language) (type : String) (role : Role) (span : Span) :
    (empty (some language)).addNode type none role none span =
      .ok (0, rooted language type role span) :=
  rfl

theorem grow_rooted (language : Language) (type : String) (role : Role) (span : Span)
    (as : List Annotated) :
    (rooted language type role span).grow 0 as =
      let t := toTree (some language) (.branch type role none span as)
      ⟨t.language, t.nodes⟩ := by
  refine ext_toList rfl ?_
  simp [grow, rooted, toTree, layout, head, Node.withChildren, List.modify_zero_cons]

end Draft

namespace Grammar

open Outcome

variable (g : Grammar) (source : ByteArray)

/-- **The tree of a concrete tree is its syntax, laid out.** The draft refuses nothing, so only
positions and comments can be at fault. -/
theorem tree?_eq (c : Concrete) :
    g.tree? source c = (do
      let span ← (Span.between? c.label.start c.label.stop).mapError .span
      let below ← (Annotated.ofRoot g source span c).mapError .span
      pure (toTree (some g.language)
        (.branch c.label.type (g.role c.label.type) none span below))) := by
  rw [tree?]
  refine congrArg (_ >>= ·) (funext fun span ↦ congrArg (_ >>= ·) (funext fun below ↦ ?_))
  have hroot : (Draft.rooted g.language c.label.type (g.role c.label.type) span).IsInterior 0 :=
    ⟨_, rfl, rfl⟩
  rw [Draft.addNode_empty]
  show ((Draft.rooted g.language _ _ span).attachAll 0 below).mapError Fault.draft >>=
    (fun d ↦ d.build.mapError Fault.draft) = _
  rw [Draft.attachAll_eq hroot, Draft.grow_rooted]
  show (Draft.build ⟨_, _⟩).mapError Fault.draft = _
  rw [Draft.build_eq]
  rfl

/-- What reading a concrete tree successfully comes down to. -/
theorem tree?_eq_ok_iff {c : Concrete} {t : Tree} :
    g.tree? source c = .ok t ↔ ∃ span below,
      Span.between? c.label.start c.label.stop = .ok span ∧
      Annotated.ofRoot g source span c = .ok below ∧
      t = toTree (some g.language)
        (.branch c.label.type (g.role c.label.type) none span below) := by
  rw [tree?_eq]
  constructor
  · intro h
    obtain ⟨span, hspan, h⟩ := bind_eq_ok_iff.1 h
    obtain ⟨below, hbelow, h⟩ := bind_eq_ok_iff.1 h
    cases h
    exact ⟨span, below, mapError_eq_ok_iff.1 hspan, mapError_eq_ok_iff.1 hbelow, rfl⟩
  · rintro ⟨span, below, hspan, hbelow, rfl⟩
    exact bind_eq_ok_iff.2 ⟨span, mapError_eq_ok_iff.2 hspan,
      bind_eq_ok_iff.2 ⟨below, mapError_eq_ok_iff.2 hbelow, rfl⟩⟩

end Grammar

end CommentScope
