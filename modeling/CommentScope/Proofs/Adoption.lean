import CommentScope.Proofs.Links
import CommentScope.Proofs.ReadAlike
import CommentScope.Proofs.Scopes

/-!
# Adoption is a rewriting of trees

A node of an adopting type takes over the siblings behind it while siblings are read. The same can
be had by rewriting the concrete tree first, from the top, so that these siblings are its last
children, and then reading without adoption (`Grammar.tree?_adopted`).

There is one difference. The name child of a node may stand behind a sibling that takes it over.
Reading the tree as it was reported, the node is still named after this child; in the rewritten tree
the child is no longer its own, and the node has no name (`Grammar.tree?_adopted_ne`). These are all
the names that differ (`Tree.IsWithout`, `Concrete.lostNames`): interior nodes are told apart by
their rank, as they are where scopes are looked up (`Grammar.interior_entries`).

Both readings go through their siblings in step (`Concrete.mirrors_adoptedAll`).
-/

namespace CommentScope

namespace Concrete

variable (g : Grammar)

/-! ### The rewriting -/

/-- Whether a node takes over the siblings behind it: an interior node of an adopting type that is
no comment. -/
def takesOver (c : Concrete) : Bool := g.isAdopting c && !g.isComment c && !c.isLeaf

/-- Whether the name child of a node is taken over by a sibling before it. -/
def losesName (c : Concrete) : Bool :=
  c.label.nameChild.any fun k ↦
    decide (k < c.children.length) && (c.children.take k).any (takesOver g)

/-- The position of the name child of a node, if this child stays its own. -/
def ownName? (c : Concrete) : Option Nat :=
  c.label.nameChild.filter fun k ↦ decide (k < c.children.length) && !c.losesName g

/-- What is reported of a node, but for a name child that is not its own. -/
def ownLabel (c : Concrete) : Label := { c.label with nameChild := c.ownName? g }

mutual

/-- A tree in which no node has a name child that is taken over. -/
def withOwnNames : Concrete → Concrete
  | ⟨l, cs⟩ => ⟨ownLabel g ⟨l, cs⟩, withOwnNamesAll cs⟩

/-- Trees in which no node has a name child that is taken over. -/
def withOwnNamesAll : List Concrete → List Concrete
  | [] => []
  | c :: cs => withOwnNames c :: withOwnNamesAll cs

end

/-- Siblings, rewritten: a node that takes over the siblings behind it gets them as its last
children, and what it then holds is rewritten in turn. -/
def adoptedAll : List Concrete → List Concrete
  | [] => []
  | c :: rest =>
    if takesOver g c then [⟨ownLabel g c, adoptedAll (c.children ++ rest)⟩]
    else ⟨ownLabel g c, adoptedAll c.children⟩ :: adoptedAll rest
termination_by cs => weightOfAll cs
decreasing_by
  all_goals
    have h := c.weight_eq
    simp only [weightOfAll_cons, weightOfAll_append]
    omega

/-- A tree, rewritten from the top. The root has no siblings. -/
def adopted (c : Concrete) : Concrete := ⟨ownLabel g c, adoptedAll g c.children⟩

variable {g}

theorem withOwnNames_eq (c : Concrete) :
    c.withOwnNames g = ⟨ownLabel g c, withOwnNamesAll g c.children⟩ := by
  cases c
  rw [withOwnNames]
  rfl

theorem children_withOwnNames (c : Concrete) :
    (c.withOwnNames g).children = withOwnNamesAll g c.children := by
  rw [withOwnNames_eq]
  rfl

theorem withOwnNamesAll_eq_map (cs : List Concrete) :
    withOwnNamesAll g cs = cs.map (withOwnNames g) := by
  induction cs with
  | nil => rfl
  | cons c cs ih => rw [withOwnNamesAll, ih, List.map_cons]

theorem withOwnNamesAll_append (cs ds : List Concrete) :
    withOwnNamesAll g (cs ++ ds) = withOwnNamesAll g cs ++ withOwnNamesAll g ds := by
  simp only [withOwnNamesAll_eq_map, List.map_append]

theorem adoptedAll_of_takesOver {c : Concrete} (h : c.takesOver g = true) (rest : List Concrete) :
    adoptedAll g (c :: rest) = [⟨ownLabel g c, adoptedAll g (c.children ++ rest)⟩] := by
  rw [adoptedAll, if_pos h]

theorem adoptedAll_of_not_takesOver {c : Concrete} (h : c.takesOver g = false)
    (rest : List Concrete) : adoptedAll g (c :: rest) = c.adopted g :: adoptedAll g rest := by
  rw [adoptedAll, if_neg (by simp [h])]
  rfl

theorem isLeaf_withOwnNames (c : Concrete) : (c.withOwnNames g).isLeaf = c.isLeaf := by
  rw [withOwnNames_eq, isLeaf, isLeaf, children, withOwnNamesAll_eq_map, List.isEmpty_map]

theorem isComment_withOwnNames (c : Concrete) : g.isComment (c.withOwnNames g) = g.isComment c := by
  rw [withOwnNames_eq]
  rfl

theorem isEmpty_adoptedAll (cs : List Concrete) : (adoptedAll g cs).isEmpty = cs.isEmpty := by
  cases cs with
  | nil => rw [adoptedAll]
  | cons c rest =>
    rw [adoptedAll]
    split <;> rfl

theorem isLeaf_adopted (c : Concrete) : (c.adopted g).isLeaf = c.isLeaf :=
  isEmpty_adoptedAll c.children

/-- A child before which nothing is taken over keeps its place. -/
theorem getElem?_adoptedAll {cs : List Concrete} {k : Nat} (rest : List Concrete)
    (hk : k < cs.length) (h : (cs.take k).any (takesOver g) = false) :
    ((adoptedAll g (cs ++ rest))[k]?).map label = some (ownLabel g cs[k]) := by
  induction cs generalizing k with
  | nil => exact absurd hk (Nat.not_lt_zero k)
  | cons c cs ih =>
    cases k with
    | zero =>
      rw [List.cons_append, adoptedAll]
      split <;> rfl
    | succ k =>
      rw [List.take_succ_cons, List.any_cons, Bool.or_eq_false_iff] at h
      rw [List.cons_append, adoptedAll_of_not_takesOver h.1, List.getElem?_cons_succ]
      exact ih (Nat.lt_of_succ_lt_succ hk) h.2

/-! ### Names -/

open Annotated

variable {source : ByteArray}

/-- Of the name child of a node, only what is reported of it counts. -/
theorem declaredName?_eq (c : Concrete) : g.declaredName? source c =
    (g.role? c.label.type).bind fun _ ↦ c.label.nameChild.bind fun k ↦
      (c.children[k]?.map label).map fun l ↦ Utf8.slice source l.startByte l.endByte := by
  rw [Grammar.declaredName?]
  cases g.role? c.label.type with
  | none => rfl
  | some r =>
    cases c.label.nameChild with
    | none => rfl
    | some k => cases h : c.children[k]? <;> simp [h]

/-- **A node is named after a child of its own**: its name survives the rewriting of its children
unless a sibling takes the name child over. -/
theorem declaredName?_ownLabel (types : List String) (c : Concrete) {ds : List Concrete}
    (h : ∀ (k : Nat) (hk : k < c.children.length), (c.children.take k).any (takesOver g) = false →
      ds[k]?.map label = some (ownLabel g c.children[k])) :
    (g.withAdopting types).declaredName? source ⟨ownLabel g c, ds⟩ =
      if c.losesName g then none else g.declaredName? source c := by
  rw [declaredName?_eq, declaredName?_eq]
  show (g.role? c.label.type).bind (fun _ ↦ (c.ownName? g).bind fun k ↦
    (ds[k]?.map label).map fun l ↦ Utf8.slice source l.startByte l.endByte) = _
  rw [ownName?, losesName]
  cases c.label.nameChild with
  | none => simp
  | some k =>
    by_cases hk : k < c.children.length
    · cases hlost : (c.children.take k).any (takesOver g) with
      | true => simp [hk, hlost]
      | false => simp [hk, hlost, h k hk hlost, ownLabel, Option.filter, -Option.map_map]
    · simp [hk]

theorem declaredName?_withOwnNames (c : Concrete) :
    g.declaredName? source (c.withOwnNames g) =
      if c.losesName g then none else g.declaredName? source c := by
  rw [withOwnNames_eq]
  refine declaredName?_ownLabel g.adopting c fun k hk _ ↦ ?_
  simp [withOwnNamesAll_eq_map, hk, withOwnNames_eq, label]

theorem declaredName?_adoptedAll (types : List String) (c : Concrete) (rest : List Concrete) :
    (g.withAdopting types).declaredName? source ⟨ownLabel g c, adoptedAll g (c.children ++ rest)⟩ =
      if c.losesName g then none else g.declaredName? source c :=
  declaredName?_ownLabel types c fun _ hk h ↦ getElem?_adoptedAll rest hk h

/-! ### The rewriting is read in step -/

theorem isLike_withOwnNames (c : Concrete) : c.label.IsLike (c.withOwnNames g).label := by
  rw [withOwnNames_eq]
  exact ⟨_, rfl⟩

theorem inside_withOwnNames (c : Concrete) (rest : List Concrete) :
    inside g (c.withOwnNames g) (withOwnNamesAll g rest) = withOwnNamesAll g (inside g c rest) := by
  rw [withOwnNames_eq]
  show (if g.isAdopting c then _ else _) = _
  rw [inside]
  split
  · exact (withOwnNamesAll_append _ _).symm
  · rfl

theorem behind_withOwnNames (c : Concrete) (rest : List Concrete) :
    behind g (c.withOwnNames g) (withOwnNamesAll g rest) = withOwnNamesAll g (behind g c rest) := by
  rw [withOwnNames_eq]
  show (if g.isAdopting c then _ else _) = _
  rw [behind]
  split
  · rfl
  · rfl

/-- Induction over siblings as they are read: a comment or a leaf is followed by the siblings behind
it, an interior node by what it holds and by what it leaves to its parent. -/
theorem siblings_induction {motive : List Concrete → Prop} (nil : motive [])
    (comment : ∀ c rest, g.isComment c = true → motive rest → motive (c :: rest))
    (leaf : ∀ c rest, g.isComment c = false → c.isLeaf = true → motive rest → motive (c :: rest))
    (inner : ∀ c rest, g.isComment c = false → c.isLeaf = false → motive (inside g c rest) →
      motive (behind g c rest) → motive (c :: rest)) (cs : List Concrete) : motive cs := by
  induction h : weightOfAll cs using Nat.strongRecOn generalizing cs with
  | ind n ih =>
    cases cs with
    | nil => exact nil
    | cons c rest =>
      have hweight : weightOfAll (c :: rest) = c.weight + weightOfAll rest := rfl
      have hc := c.weight_pos
      have hsplit := weight_inside_add_behind g c rest
      have hrest : motive rest := ih _ (by omega) _ rfl
      cases hcomment : g.isComment c with
      | true => exact comment c rest hcomment hrest
      | false =>
        cases hleaf : c.isLeaf with
        | true => exact leaf c rest hcomment hleaf hrest
        | false =>
          exact inner c rest hcomment hleaf (ih _ (by omega) _ rfl) (ih _ (by omega) _ rfl)

/-- What an interior node holds was among the nodes before. -/
theorem nodesAll_inside_subset (c : Concrete) (rest : List Concrete) :
    nodesAll (inside g c rest) ⊆ nodesAll (c :: rest) := by
  have hself : nodesAll c.children ⊆ c.nodes := by
    rw [nodes_eq_cons, nodesAll_eq_flatMap]
    exact List.subset_cons_self _ _
  rw [inside, nodesAll]
  split
  · rw [nodesAll_eq_flatMap, List.flatMap_append, ← nodesAll_eq_flatMap, ← nodesAll_eq_flatMap]
    exact List.append_subset.2
      ⟨fun _ h ↦ List.mem_append_left _ (hself h), List.subset_append_right _ _⟩
  · exact fun _ h ↦ List.mem_append_left _ (hself h)

/-- What an interior node leaves to its parent was among the nodes before. -/
theorem nodesAll_behind_subset (c : Concrete) (rest : List Concrete) :
    nodesAll (behind g c rest) ⊆ nodesAll (c :: rest) := by
  rw [behind, nodesAll]
  split
  · exact List.nil_subset _
  · exact List.subset_append_right _ _

/-- An interior node, rewritten: it holds what it holds when it is read, and leaves to its parent
what it leaves there. -/
theorem adoptedAll_of_inner {c : Concrete} (hcode : g.isComment c = false)
    (hinner : c.isLeaf = false) (rest : List Concrete) :
    adoptedAll g (c :: rest) =
      ⟨ownLabel g c, adoptedAll g (inside g c rest)⟩ :: adoptedAll g (behind g c rest) := by
  have hnil : adoptedAll g [] = [] := by rw [adoptedAll]
  rw [inside, behind]
  cases h : g.isAdopting c with
  | true =>
    rw [if_pos rfl, if_pos rfl, hnil]
    exact adoptedAll_of_takesOver (by simp [takesOver, h, hcode, hinner]) rest
  | false => exact adoptedAll_of_not_takesOver (by simp [takesOver, h]) rest

/-- An interior node holds no less than its children. -/
theorem inside_eq_append (c : Concrete) (rest : List Concrete) :
    ∃ more, inside g c rest = c.children ++ more := by
  rw [inside]
  split
  · exact ⟨rest, rfl⟩
  · exact ⟨[], (List.append_nil _).symm⟩

/-- A tree is read in step with the same tree without the names that are lost. -/
theorem mirrors_withOwnNames {N : Option String → Option String → Prop} {cs : List Concrete}
    (names : ∀ n ∈ nodesAll cs,
      N (g.declaredName? source n) (g.declaredName? source (n.withOwnNames g))) :
    Mirrors g g.adopting source N cs (withOwnNamesAll g cs) := by
  induction cs using siblings_induction (g := g) with
  | nil => exact .nil
  | comment c rest hcomment ih =>
    exact .comment (isLike_withOwnNames c) hcomment
      (ih fun n hn ↦ names n (List.mem_append_right _ hn))
  | leaf c rest hcode hleaf ih =>
    exact .leaf (isLike_withOwnNames c) hcode hleaf ((isLeaf_withOwnNames c).trans hleaf)
      (ih fun n hn ↦ names n (List.mem_append_right _ hn))
  | inner c rest hcode hinner ihin ihbe =>
    refine .inner (isLike_withOwnNames c) hcode hinner ((isLeaf_withOwnNames c).trans hinner)
      (names c (List.mem_append_left _ c.self_mem_nodes)) ?_ ?_
    · exact (inside_withOwnNames c rest).symm ▸
        ihin fun n hn ↦ names n (nodesAll_inside_subset c rest hn)
    · exact (behind_withOwnNames c rest).symm ▸
        ihbe fun n hn ↦ names n (nodesAll_behind_subset c rest hn)

/-- **Adoption is done by the rewriting:** a tree without the names that are lost is read in step
with the rewritten tree and no adopting types. -/
theorem mirrors_adoptedAll (cs : List Concrete) :
    Mirrors g [] source Eq (withOwnNamesAll g cs) (adoptedAll g cs) := by
  have like : ∀ c : Concrete, (c.withOwnNames g).label.IsLike (ownLabel g c) := by
    intro c
    rw [withOwnNames_eq]
    exact ⟨_, rfl⟩
  induction cs using siblings_induction (g := g) with
  | nil =>
    rw [adoptedAll]
    exact .nil
  | comment c rest hcomment ih =>
    rw [adoptedAll_of_not_takesOver (by simp [takesOver, hcomment])]
    exact .comment (like c) ((isComment_withOwnNames c).trans hcomment) ih
  | leaf c rest hcode hleaf ih =>
    rw [adoptedAll_of_not_takesOver (by simp [takesOver, hleaf])]
    exact .leaf (like c) ((isComment_withOwnNames c).trans hcode)
      ((isLeaf_withOwnNames c).trans hleaf)
      ((isLeaf_adopted c).trans hleaf) ih
  | inner c rest hcode hinner ihin ihbe =>
    obtain ⟨more, hmore⟩ := inside_eq_append (g := g) c rest
    have hname : g.declaredName? source (c.withOwnNames g) = (g.withAdopting []).declaredName?
        source ⟨ownLabel g c, adoptedAll g (inside g c rest)⟩ := by
      rw [hmore, declaredName?_adoptedAll, declaredName?_withOwnNames]
    have hinner' : (adoptedAll g (inside g c rest)).isEmpty = false := by
      rw [isLeaf, List.isEmpty_eq_false_iff] at hinner
      simp [isEmpty_adoptedAll, hmore, hinner]
    rw [adoptedAll_of_inner hcode hinner]
    refine .inner (like c) ((isComment_withOwnNames c).trans hcode)
      ((isLeaf_withOwnNames c).trans hinner) hinner' hname ?_ ?_
    · exact (inside_withOwnNames c rest).symm ▸ ihin
    · exact (behind_withOwnNames c rest).symm ▸ ihbe

end Concrete

/-! ### Trees without some names -/

/-- Whether a tree is another one without the names of some interior nodes: `lost` says of each of
them, in the order of the arena, whether its name is gone. -/
structure Tree.IsWithout (t' t : Tree) (lost : List Bool) : Prop where
  tokens : ∀ i : Fin t.size, (t.node i).isToken = true → t'.nodes[i.val]? = some (t.node i)
  interior : List.Forall₂
    (fun gone i ↦ t'.nodes[i.val]? = some (if gone then (t.node i).nameless else t.node i)) lost
    t.interior

namespace Tree

variable {t t' : Tree}

/-- Which nodes are interior can be told without their names. -/
theorem map_val_interior (t : Tree) : t.interior.map Fin.val =
    (List.range t.size).filter fun i ↦ (t.nameless.nodes[i]?).any fun n ↦ !n.isToken := by
  have hkeep : (fun i : Fin t.size ↦ !(t.node i).isToken) =
      (fun i : Nat ↦ (t.nameless.nodes[i]?).any fun n ↦ !n.isToken) ∘ Fin.val := by
    funext i
    have hget : t.nodes[i.val]? = some (t.node i) := Array.getElem?_eq_getElem i.isLt
    rw [Function.comp_apply, nameless, Array.getElem?_map, hget]
    rfl
  rw [interior, hkeep, ← List.filter_map, List.map_coe_finRange_eq_range]

theorem map_val_interior_of_nameless (h : t.nameless = t'.nameless) :
    t.interior.map Fin.val = t'.interior.map Fin.val := by
  have hsize : t.size = t'.size := by
    have hsize := congrArg (fun t : Tree ↦ t.nodes.size) h
    simpa [nameless] using hsize
  rw [map_val_interior, map_val_interior, h, hsize]

/-- Trees that are the same but for names, at a node. -/
theorem exists_node_of_nameless (h : t.nameless = t'.nameless) (i : Fin t.size) :
    ∃ n, t'.nodes[i.val]? = some n ∧ n.nameless = (t.node i).nameless := by
  have hget : t.nodes[i.val]? = some (t.node i) := Array.getElem?_eq_getElem i.isLt
  have heq := congrArg (fun t : Tree ↦ t.nodes[i.val]?) h
  simp only [nameless, Array.getElem?_map, hget, Option.map_some] at heq
  exact Option.map_eq_some_iff.1 heq.symm

end Tree

/-- Nodes are known by their names and by what they are without them. -/
theorem Node.eq_of_nameless {n n' : Node} (h : n.nameless = n'.nameless)
    (hname : n.name = n'.name) : n = n' := by
  cases n
  cases n'
  cases hname
  simpa [nameless] using h

/-- Whether a landmark is a node whose name child is taken over by a sibling before it. The root has
no name that could be lost. -/
def Landmark.losesName (g : Grammar) : Landmark → Bool
  | .inner c => c.losesName g
  | .root _ | .leaf _ | .comment _ => false

/-- For each interior node of a concrete tree, in order, whether its name child is taken over. -/
def Concrete.lostNames (g : Grammar) (source : ByteArray) (c : Concrete) : List Bool :=
  ((c.landmarks g source).filter Landmark.isInterior).map (Landmark.losesName g)

/-- An interior node beside the same node with a name of its own. -/
inductive Landmark.OwnsName (g : Grammar) : Landmark → Landmark → Prop
  | root (c : Concrete) : OwnsName g (.root c) (.root (c.withOwnNames g))
  | inner (c : Concrete) : OwnsName g (.inner c) (.inner (c.withOwnNames g))

section

variable {g : Grammar} {source : ByteArray}

theorem Landmark.name_of_root {c : Concrete} {e : Entry}
    (h : (root c).passage? g source = .ok (.node e)) : e.name = none := by
  obtain ⟨_, hentry, hpassage⟩ := Outcome.map_eq_ok_iff.1 h
  obtain ⟨span, -, rfl⟩ := Outcome.map_eq_ok_iff.1 hentry
  cases hpassage
  rfl

theorem Landmark.name_of_inner {c : Concrete} {e : Entry}
    (h : (inner c).passage? g source = .ok (.node e)) : e.name = g.declaredName? source c := by
  obtain ⟨_, hentry, hpassage⟩ := Outcome.map_eq_ok_iff.1 h
  obtain ⟨span, -, rfl⟩ := Outcome.map_eq_ok_iff.1 hentry
  cases hpassage
  rfl

theorem Landmark.OwnsName.name_eq {l l' : Landmark} (h : OwnsName g l l') {e e' : Entry}
    (he : l.passage? g source = .ok (.node e)) (he' : l'.passage? g source = .ok (.node e')) :
    e'.name = if l.losesName g then none else e.name := by
  cases h with
  | root c => rw [name_of_root he, name_of_root he', ite_self]
  | inner c =>
    rw [name_of_inner he, name_of_inner he']
    exact Concrete.declaredName?_withOwnNames c

namespace Concrete

open Arranged

/-- The interior nodes among siblings, in step. -/
theorem ownsName_innersAll (source : ByteArray) (cs : List Concrete) :
    List.Forall₂ (Landmark.OwnsName g) (innersAll (ofSiblings g source cs))
      (innersAll (ofSiblings g source (withOwnNamesAll g cs))) := by
  induction cs using siblings_induction (g := g) with
  | nil =>
    rw [withOwnNamesAll, ofSiblings]
    exact .nil
  | comment c rest hcomment ih =>
    rw [withOwnNamesAll, innersAll_ofSiblings_comment source rest hcomment,
      innersAll_ofSiblings_comment source _ ((isComment_withOwnNames c).trans hcomment)]
    exact ih
  | leaf c rest hcode hleaf ih =>
    rw [withOwnNamesAll, innersAll_ofSiblings_leaf source rest hcode hleaf,
      innersAll_ofSiblings_leaf source _ ((isComment_withOwnNames c).trans hcode)
        ((isLeaf_withOwnNames c).trans hleaf)]
    exact ih
  | inner c rest hcode hinner ihin ihbe =>
    rw [withOwnNamesAll, innersAll_ofSiblings_inner source rest hcode hinner,
      innersAll_ofSiblings_inner source _ ((isComment_withOwnNames c).trans hcode)
        ((isLeaf_withOwnNames c).trans hinner), inside_withOwnNames, behind_withOwnNames]
    exact .cons (.inner c) (List.rel_append ihin ihbe)

/-- The interior nodes of a tree, in step. -/
theorem ownsName_interior (source : ByteArray) (c : Concrete) :
    List.Forall₂ (Landmark.OwnsName g) ((c.landmarks g source).filter Landmark.isInterior)
      (((c.withOwnNames g).landmarks g source).filter Landmark.isInterior) := by
  rw [landmarks, landmarks, List.filter_cons_of_pos (by rfl), List.filter_cons_of_pos (by rfl),
    ofRoot, ofRoot, children_withOwnNames]
  exact .cons (.root c) (ownsName_innersAll source c.children)

end Concrete

namespace Grammar

variable {c : Concrete} {t t' : Tree}

/-- Tokens of a tree that was read have no names. -/
theorem name_of_isToken (h : g.tree? source c = .ok t) {n : Node} (hn : n ∈ t.nodes.toList)
    (htoken : n.isToken = true) : n.name = none := by
  obtain ⟨span, below, -, -, rfl⟩ := (tree?_eq_ok_iff g source).1 h
  rw [Tree.nodes_toTree] at hn
  obtain ⟨parent, k, a, rfl⟩ := Annotated.exists_head_of_mem_layoutAll hn
  cases a with
  | token => rfl
  | inserted => rfl
  | branch => cases htoken

/-- **Without the name children that are taken over**, a tree is read as the same tree without the
names of their nodes. -/
theorem isWithout_of_withOwnNames (h : g.tree? source c = .ok t)
    (h' : g.tree? source (c.withOwnNames g) = .ok t') (hnameless : t.nameless = t'.nameless) :
    t'.IsWithout t (c.lostNames g source) := by
  refine ⟨fun i hi ↦ ?_, ?_⟩
  · obtain ⟨n, hn, hsame⟩ := Tree.exists_node_of_nameless hnameless i
    have htoken : n.isToken = true := (congrArg Node.isToken hsame).trans hi
    have hname := name_of_isToken h' (Array.mem_toList_iff.2 (Array.mem_of_getElem? hn)) htoken
    have hname' := name_of_isToken h (Array.getElem_mem_toList i.isLt) hi
    rw [hn, Node.eq_of_nameless hsame (hname.trans hname'.symm)]
  · have hentries := Outcome.mapM_eq_ok_iff.1 (interior_entries h)
    have hentries' := Outcome.mapM_eq_ok_iff.1 (interior_entries h')
    have hstep := c.ownsName_interior (g := g) source
    have hplaces := Tree.map_val_interior_of_nameless hnameless
    rw [List.forall₂_map_right_iff, List.forall₂_iff_get] at hentries hentries'
    rw [List.forall₂_iff_get] at hstep
    rw [Concrete.lostNames, List.forall₂_map_left_iff, List.forall₂_iff_get]
    refine ⟨hentries.1, fun k hk hi ↦ ?_⟩
    have hk' := hstep.1 ▸ hk
    have hi' := hentries'.1 ▸ hk'
    have hname := (hstep.2 k hk hk').name_eq (hentries.2 k hk hi) (hentries'.2 k hk' hi')
    have hplace : (t.interior.get ⟨k, hi⟩).val = (t'.interior.get ⟨k, hi'⟩).val := by
      have hget := congrArg (fun is : List Nat ↦ is[k]?) hplaces
      simpa [hi, hi'] using hget
    obtain ⟨n, hn, hsame⟩ := Tree.exists_node_of_nameless hnameless (t.interior.get ⟨k, hi⟩)
    have hnode : n = t'.node (t'.interior.get ⟨k, hi'⟩) := by
      rw [hplace] at hn
      exact (Option.some.inj ((Array.getElem?_eq_getElem (Fin.isLt _)).symm.trans hn)).symm
    rw [← hnode] at hname
    rw [hn]
    refine congrArg some ?_
    split
    · rename_i hlost
      exact Node.eq_of_nameless hsame (hname.trans (if_pos hlost))
    · rename_i hlost
      exact Node.eq_of_nameless hsame (hname.trans (if_neg hlost))

end Grammar

end

namespace Grammar

variable (g : Grammar) (source : ByteArray) (c : Concrete)

/-- **Adoption is a rewriting of trees.** A tree is lowered to what the rewritten tree is lowered to
when no type adopts: the same arena node by node, or the same failure. Names excepted, this is so of
every tree. A name is the same as well, unless the name child of its node is taken over: then the
node has no name. With names, it is so of the tree in which no node has a name child that is taken
over, and hence of every tree in which no name child is taken over. -/
theorem tree?_adopted :
    g.tree? source (c.withOwnNames g) = (g.withAdopting []).tree? source (c.adopted g) ∧
      (g.tree? source c).map Tree.nameless =
        ((g.withAdopting []).tree? source (c.adopted g)).map Tree.nameless ∧
      Outcome.Alike (fun t t' ↦ t'.IsWithout t (c.lostNames g source)) (g.tree? source c)
        ((g.withAdopting []).tree? source (c.adopted g)) ∧
      ((∀ n ∈ c.nodes, n.losesName g = false) →
        g.tree? source c = (g.withAdopting []).tree? source (c.adopted g)) := by
  have hadopted : g.tree? source (c.withOwnNames g) =
      (g.withAdopting []).tree? source (c.adopted g) := by
    rw [Concrete.withOwnNames_eq]
    exact tree?_eq_of_mirrors ⟨_, rfl⟩ (Concrete.mirrors_adoptedAll c.children)
  have hlike := c.isLike_withOwnNames (g := g)
  have hnameless : (g.tree? source c).map Tree.nameless =
      (g.tree? source (c.withOwnNames g)).map Tree.nameless := by
    have hmirrors : Concrete.Mirrors g g.adopting source (fun _ _ ↦ True) c.children
        (c.withOwnNames g).children :=
      c.children_withOwnNames ▸ Concrete.mirrors_withOwnNames fun _ _ ↦ trivial
    exact nameless_tree?_of_mirrors hlike hmirrors
  rw [← hadopted]
  refine ⟨rfl, hnameless, ?_, fun hown ↦ ?_⟩
  · exact .of_map_eq hnameless fun t t' ht ht' hsame ↦ isWithout_of_withOwnNames ht ht' hsame
  · have hmirrors : Concrete.Mirrors g g.adopting source Eq c.children
        (c.withOwnNames g).children := by
      refine c.children_withOwnNames ▸ Concrete.mirrors_withOwnNames fun n hn ↦ ?_
      have hlost : n.losesName g = false := hown n (by
        rw [Concrete.nodes_eq_cons, ← Concrete.nodesAll_eq_flatMap]
        exact List.mem_cons_of_mem _ hn)
      rw [Concrete.declaredName?_withOwnNames, hlost]
      rfl
    exact tree?_eq_of_mirrors hlike hmirrors

/-- In the small file a namespace adopts two comments and a class, and a class behind it keeps its
name. -/
theorem tree?_adopted_sample :
    (∀ n ∈ Concrete.sample.nodes, n.losesName csharp = false) ∧
      (csharp.tree? Concrete.sampleText.toUTF8 Concrete.sample).isOk = true ∧
      csharp.tree? Concrete.sampleText.toUTF8 Concrete.sample =
        (csharp.withAdopting []).tree? Concrete.sampleText.toUTF8
          (Concrete.sample.adopted csharp) := by
  have hown : ∀ n ∈ Concrete.sample.nodes, n.losesName csharp = false := by decide
  exact ⟨hown, Concrete.sample_isOk,
    (tree?_adopted csharp Concrete.sampleText.toUTF8 Concrete.sample).2.2.2 hown⟩

end Grammar

/-- The concrete tree of a class with a modifier. -/
def Concrete.modified : Concrete :=
  onRow "compilation_unit" 0 0 0 15 none
    [onRow "class_declaration" 0 0 0 15 (some 2)
      [onRow "modifier" 0 0 0 6 none [onRow "public" 0 0 0 6 none []],
        onRow "class" 0 7 7 5 none [], onRow "identifier" 0 13 13 1 none [],
        onRow ";" 0 14 14 1 none []]]

/-- **A name child that is taken over still names the node**, if adoption is left to the reader: a
modifier that adopts what is behind it leaves the class its name. -/
theorem Grammar.tree?_adopted_ne :
    (csharp.withAdopting ["modifier"]).tree? "public class C;".toUTF8 Concrete.modified ≠
      (csharp.withAdopting []).tree? "public class C;".toUTF8
        (Concrete.modified.adopted (csharp.withAdopting ["modifier"])) := by
  intro h
  have hnames := congrArg (fun r ↦ r.toOption.map fun t ↦ t.nodes.toList.map Node.name) h
  revert hnames
  decide +kernel

/-- Of the three interior nodes it is the class that loses its name. -/
example : Concrete.modified.lostNames (Grammar.csharp.withAdopting ["modifier"])
    "public class C;".toUTF8 = [false, true, false] := by
  decide +kernel

end CommentScope
