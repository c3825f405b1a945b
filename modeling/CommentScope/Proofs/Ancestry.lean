import CommentScope.Grammar
import CommentScope.Proofs.LazyFindings
import CommentScope.Proofs.Layout
import Mathlib.Data.List.Chain
import Mathlib.Order.WellFounded

/-!
# Ancestors and scopes

The ancestors of a node are the way up to the root: each is the parent of the one before it and
stands further in front, so the way ends, whatever the child lists say (`Tree.isChain_ancestors`,
`Tree.pairwise_ancestors`, `Tree.getLast?_ancestors`). Behind any ancestor the way goes on as that
ancestor's own (`Tree.ancestors_split`), so of two ancestors one encloses the other.

Scopes are looked up on this way, from the inside out. A lookup finds the innermost node that is
wanted, and the nodes that are wanted further out enclose it (`Tree.isInnermost_enclosing?`). It
depends on the roles on the way, and only on whether they are wanted (`Tree.enclosing?_congr`).
-/

namespace CommentScope

namespace Tree

variable {t t' : Tree} {i p a b : Fin t.size}

/-! ### The way up -/

theorem ancestors_of_none (h : t.parent? i = none) : t.ancestors i = [] := by
  rw [ancestors]
  split
  · rfl
  · rename_i p hp
    cases h.symm.trans hp

theorem ancestors_of_some (h : t.parent? i = some p) : t.ancestors i = p :: t.ancestors p := by
  rw [ancestors]
  split
  · rename_i hnone
    cases h.symm.trans hnone
  · rename_i q hq
    cases h.symm.trans hq
    rfl

/-- The root alone has no parent. -/
theorem parent?_eq_none_iff : t.parent? i = none ↔ i = t.root := by
  constructor
  · intro hnone
    by_contra hne
    have hpos : 0 < i.val := Nat.pos_of_ne_zero fun h0 ↦ hne (Fin.ext h0)
    obtain ⟨p, hp, -⟩ := t.parent_before i.val i.isLt hpos
    have hparent := t.val_parent? i
    rw [hnone] at hparent
    cases hparent.trans hp
  · rintro rfl
    exact t.parent?_root

/-- What holds of the root, and of every node whose parent it holds of, holds of all nodes. -/
theorem parent_induction {motive : Fin t.size → Prop} (root : motive t.root)
    (child : ∀ i p, t.parent? i = some p → motive p → motive i) (i : Fin t.size) : motive i := by
  induction i using WellFoundedLT.induction with
  | ind i ih =>
    cases hp : t.parent? i with
    | none => exact parent?_eq_none_iff.1 hp ▸ root
    | some p => exact child i p hp (ih p (t.parent?_lt hp))

theorem head?_ancestors (i : Fin t.size) : (t.ancestors i).head? = t.parent? i := by
  cases hp : t.parent? i with
  | none => rw [ancestors_of_none hp, List.head?_nil]
  | some p => rw [ancestors_of_some hp, List.head?_cons]

/-- **Each ancestor is the parent of the one before it.** -/
theorem isChain_ancestors (i : Fin t.size) :
    (i :: t.ancestors i).IsChain fun a b ↦ t.parent? a = some b := by
  induction i using parent_induction with
  | root =>
    rw [ancestors_of_none t.parent?_root]
    exact .singleton _
  | child i p hp ih =>
    rw [ancestors_of_some hp]
    exact .cons_cons hp ih

/-- **The way up leads to the front of the arena.** -/
theorem pairwise_ancestors (i : Fin t.size) : (i :: t.ancestors i).Pairwise (· > ·) :=
  ((isChain_ancestors i).imp fun _ _ h ↦ t.parent?_lt h).pairwise

theorem lt_of_mem_ancestors (h : a ∈ t.ancestors i) : a < i :=
  (List.pairwise_cons.1 (pairwise_ancestors i)).1 a h

/-- **The way up ends at the root.** -/
theorem getLast?_ancestors (i : Fin t.size) : (i :: t.ancestors i).getLast? = some t.root := by
  induction i using parent_induction with
  | root =>
    rw [ancestors_of_none t.parent?_root]
    rfl
  | child i p hp ih => rw [ancestors_of_some hp, List.getLast?_cons_cons, ih]

/-- **Behind an ancestor the way up is that of the ancestor.** -/
theorem ancestors_split {nearer farther : List (Fin t.size)}
    (h : t.ancestors i = nearer ++ a :: farther) : farther = t.ancestors a := by
  induction nearer generalizing i with
  | nil =>
    cases hp : t.parent? i with
    | none =>
      rw [ancestors_of_none hp] at h
      cases h
    | some p =>
      rw [ancestors_of_some hp] at h
      cases h
      rfl
  | cons b nearer ih =>
    cases hp : t.parent? i with
    | none =>
      rw [ancestors_of_none hp] at h
      cases h
    | some p =>
      rw [ancestors_of_some hp, List.cons_append, List.cons.injEq] at h
      exact ih h.2

theorem mem_ancestors_trans (h : a ∈ t.ancestors b) (h' : b ∈ t.ancestors i) :
    a ∈ t.ancestors i := by
  obtain ⟨nearer, farther, hsplit⟩ := List.append_of_mem h'
  rw [ancestors_split hsplit] at hsplit
  rw [hsplit]
  exact List.mem_append_right _ (List.mem_cons_of_mem b h)

/-- Of two ancestors one encloses the other. -/
theorem ancestors_comparable (ha : a ∈ t.ancestors i) (hb : b ∈ t.ancestors i) :
    a = b ∨ a ∈ t.ancestors b ∨ b ∈ t.ancestors a := by
  obtain ⟨nearer, farther, hsplit⟩ := List.append_of_mem ha
  have hfarther := ancestors_split hsplit
  rw [hsplit, List.mem_append, List.mem_cons] at hb
  rcases hb with hb | rfl | hb
  · obtain ⟨front, back, rfl⟩ := List.append_of_mem hb
    rw [List.append_assoc, List.cons_append] at hsplit
    rw [← ancestors_split hsplit]
    exact .inr (.inl (List.mem_append_right _ List.mem_cons_self))
  · exact .inl rfl
  · exact .inr (.inr (hfarther ▸ hb))

/-! ### Lookups -/

/-- **A lookup finds the first node on the way up that is wanted.** -/
theorem nearest?_eq_some_iff {wanted : Fin t.size → Bool} : t.nearest? i wanted = some a ↔
    ∃ nearer farther, t.ancestors i = nearer ++ a :: farther ∧ wanted a = true ∧
      ∀ b ∈ nearer, wanted b = false := by
  rw [nearest?, List.find?_eq_some_iff_append]
  constructor
  · rintro ⟨ha, nearer, farther, hsplit, hnearer⟩
    exact ⟨nearer, farther, hsplit, ha, fun b hb ↦ by simpa using hnearer b hb⟩
  · rintro ⟨nearer, farther, hsplit, ha, hnearer⟩
    exact ⟨ha, nearer, farther, hsplit, fun b hb ↦ by simpa using hnearer b hb⟩

theorem nearest?_eq_none_iff {wanted : Fin t.size → Bool} : t.nearest? i wanted = none ↔
    ∀ a ∈ t.ancestors i, wanted a = false := by
  rw [nearest?, List.find?_eq_none]
  simp only [Bool.not_eq_true]

/-- Whether an index is that of a node around `i` of a wanted role, with all others of a wanted role
around it; no index says that there is none. -/
def IsInnermost (t : Tree) (i : Fin t.size) (wanted : Role → Bool) : Option Int → Prop
  | none => ∀ a ∈ t.ancestors i, wanted (t.node a).role = false
  | some k => ∃ a : Fin t.size, k = a.val ∧ a ∈ t.ancestors i ∧ wanted (t.node a).role = true ∧
      ∀ b ∈ t.ancestors i, wanted (t.node b).role = true → b = a ∨ b ∈ t.ancestors a

/-- **A lookup finds the innermost node of a wanted role.** -/
theorem isInnermost_enclosing? (i : Fin t.size) (wanted : Role → Bool) :
    t.IsInnermost i wanted
      ((t.enclosing? i fun n ↦ wanted n.role).map fun a ↦ (a.val : Int)) := by
  cases hfound : t.enclosing? i fun n ↦ wanted n.role with
  | none => exact nearest?_eq_none_iff.1 hfound
  | some a =>
    obtain ⟨nearer, farther, hsplit, ha, hnearer⟩ := nearest?_eq_some_iff.1 hfound
    have hmem : a ∈ t.ancestors i := by
      rw [hsplit]
      exact List.mem_append_right _ List.mem_cons_self
    refine ⟨a, rfl, hmem, ha, fun b hb hwanted ↦ ?_⟩
    rw [hsplit, List.mem_append, List.mem_cons] at hb
    rcases hb with hb | rfl | hb
    · cases hwanted.symm.trans (hnearer b hb)
    · exact .inl rfl
    · exact .inr (ancestors_split hsplit ▸ hb)

/-! ### What a lookup depends on -/

/-- Whether nodes of two trees have the same parent at the same place. -/
def SameParents (t t' : Tree) : Prop :=
  ∀ (i : Fin t.size) (i' : Fin t'.size), i'.val = i.val → (t'.node i').parent = (t.node i).parent

/-- Trees with the same parents have the same ways up. -/
theorem SameParents.ancestors (h : t.SameParents t') (i : Fin t.size) {i' : Fin t'.size}
    (hi : i'.val = i.val) :
    List.Forall₂ (fun a a' ↦ a'.val = a.val) (t.ancestors i) (t'.ancestors i') := by
  induction i using parent_induction generalizing i' with
  | root =>
    have hroot : i' = t'.root := Fin.ext hi
    rw [hroot, ancestors_of_none t.parent?_root, ancestors_of_none t'.parent?_root]
    exact .nil
  | child i p hp ih =>
    have hparent := h i i' hi
    rw [← t.val_parent?, ← t'.val_parent?, hp, Option.map_some] at hparent
    obtain ⟨p', hp', hval⟩ := Option.map_eq_some_iff.1 hparent
    rw [ancestors_of_some hp, ancestors_of_some hp']
    exact .cons hval (ih hval)

/-- **A lookup depends on what is wanted on the way up**, and on nothing else. -/
theorem enclosing?_congr (h : t.SameParents t') {i' : Fin t'.size} (hi : i'.val = i.val)
    {wanted wanted' : Node → Bool} (hsame : ∀ a ∈ t.ancestors i, ∀ a' : Fin t'.size,
      a'.val = a.val → wanted' (t'.node a') = wanted (t.node a)) :
    (t'.enclosing? i' wanted').map (fun a ↦ (a.val : Int)) =
      (t.enclosing? i wanted).map fun a ↦ (a.val : Int) := by
  rw [enclosing?, enclosing?]
  have hways := h.ancestors i hi
  generalize t.ancestors i = way at hways hsame
  generalize t'.ancestors i' = way' at hways
  induction hways with
  | nil => rfl
  | @cons a a' way way' ha _ ih =>
    obtain ⟨hfirst, hrest⟩ := List.forall_mem_cons.1 hsame
    rw [List.find?_cons, List.find?_cons, hfirst a' ha]
    cases wanted (t.node a) with
    | true => simp [ha]
    | false => exact ih hrest

/-! ### Rows of a tree -/

variable {language : Option Language} {rows : Array Row}

/-- The nodes of a tree are those of the rows that it was made from. -/
theorem nodes_of_ofRows (h : ofRows language rows = .ok t) : t.nodes = rows.map Row.toNode := by
  unfold ofRows at h
  split at h
  · split at h
    · cases h
    · cases h
      rfl
  · cases h

theorem exists_ofRows_iff :
    (∃ t, ofRows language rows = .ok t) ↔ 0 < rows.size ∧ firstFault? rows = none := by
  unfold ofRows
  split
  · rename_i hsize
    split
    · rename_i fault hfault
      simp [hfault]
    · rename_i hnone
      simp [hnone, hsize]
  · rename_i hsize
    simp [hsize]

/-- The parent that a row names is the parent of its node. -/
theorem parent?_of_ofRows (h : ofRows language rows = .ok t) (i : Fin t.size) :
    ∃ r, rows[i.val]? = some r ∧ r.toNode = t.node i ∧
      r.parent = (t.parent? i).map fun p ↦ (p.val : Int) := by
  have hnodes := nodes_of_ofRows h
  have hlt : i.val < rows.size := by
    have hi : i.val < t.nodes.size := i.isLt
    rwa [hnodes, Array.size_map] at hi
  have hnode : rows[i.val].toNode = t.node i := by
    simp only [node, hnodes, Fin.getElem_fin, Array.getElem_map]
  have hfault := fault?_of_firstFault? (exists_ofRows_iff.1 ⟨t, h⟩).2 i.val hlt
  refine ⟨rows[i.val], Array.getElem?_eq_getElem hlt, hnode, ?_⟩
  have hparent : rows[i.val].parent.map Int.toNat = (t.parent? i).map Fin.val := by
    rw [t.val_parent?, ← hnode]
    rfl
  cases hrow : rows[i.val].parent with
  | none =>
    rw [hrow] at hparent
    simpa using hparent.symm
  | some q =>
    rw [hrow] at hparent
    obtain ⟨p, hp, hval⟩ := Option.map_eq_some_iff.1 hparent.symm
    have hpos : 0 ≤ q := by
      unfold Row.fault? at hfault
      rw [hrow] at hfault
      by_contra hneg
      split at hfault
      · cases hfault
      · split at hfault
        · simp at hfault
        · simp [hneg] at hfault
    rw [hp, Option.map_some, hval, Int.toNat_of_nonneg hpos]

/-- A row with another role. -/
def Row.withRole (r : Row) (role : Role) : Row := { r with node := { r.node with role } }

/-- Rows with other roles. -/
def withRoles (roles : Nat → Role) (rows : Array Row) : Array Row :=
  rows.mapIdx fun k r ↦ r.withRole (roles k)

/-- Rows are accepted whatever their roles are. -/
theorem firstFault?_withRoles (roles : Nat → Role) (h : firstFault? rows = none) :
    firstFault? (withRoles roles rows) = none := by
  rw [firstFault?, List.findSome?_eq_none_iff]
  rintro ⟨r, k⟩ hr
  rw [List.mem_zipIdx_iff_getElem?, Array.getElem?_toList, withRoles,
    Array.getElem?_mapIdx] at hr
  dsimp only at hr
  obtain ⟨r', hr', rfl⟩ := Option.map_eq_some_iff.1 hr
  obtain ⟨hk, rfl⟩ := Array.getElem?_eq_some_iff.1 hr'
  exact fault?_of_firstFault? h k hk

/-- Other roles leave the parents as they are. -/
theorem exists_withRoles (h : ofRows language rows = .ok t) (roles : Nat → Role) :
    ∃ t', ofRows language (withRoles roles rows) = .ok t' ∧ t.SameParents t' ∧
      ∀ i' : Fin t'.size, (t'.node i').role = roles i'.val := by
  obtain ⟨hsize, hfault⟩ := exists_ofRows_iff.1 ⟨t, h⟩
  have hsize' : 0 < (withRoles roles rows).size := by simpa [withRoles] using hsize
  obtain ⟨t', ht'⟩ := exists_ofRows_iff.2 ⟨hsize', firstFault?_withRoles roles hfault⟩
  have hnodes := nodes_of_ofRows h
  have hnodes' := nodes_of_ofRows ht'
  refine ⟨t', ht', fun i i' hi ↦ ?_, fun i' ↦ ?_⟩
  · simp only [node, hnodes, hnodes', Fin.getElem_fin, Array.getElem_map, withRoles,
      Array.getElem_mapIdx, hi]
    rfl
  · simp only [node, hnodes', Fin.getElem_fin, Array.getElem_map, withRoles,
      Array.getElem_mapIdx]
    rfl

/-! ### Findings -/

variable {events : List t.Event} {accepts : Matcher} {found : List Finding}

/-- What is passed on a way in pre-order is passed at some node. -/
theorem Passes.exists_visit {descend : Bool} {refs : List Int} {ending : Walk.Ending}
    {event : t.Event} (h : t.Passes descend refs events ending) (hevent : event ∈ events) :
    ∃ i, event ∈ t.visit descend i := by
  induction h with
  | nil => cases hevent
  | missing => cases hevent
  | @broken ref refs i below _ _ ih =>
    rcases List.mem_append.1 hevent with hevent | hevent
    · exact ⟨i, hevent⟩
    · exact ih hevent
  | @cons ref refs i below behind ending _ _ _ ih ihb =>
    rcases List.mem_append.1 hevent with hevent | hevent
    · exact ⟨i, hevent⟩
    · rcases List.mem_append.1 hevent with hevent | hevent
      · exact ih hevent
      · exact ihb hevent

/-- Whether a comment belongs to a token: it is trivia before or behind it, or nested in such. -/
def HasComment (t : Tree) (anchor : Fin t.size) (comment : Trivia) : Prop :=
  (t.node anchor).isToken = true ∧ comment.isComment = true ∧
    ∃ outer ∈ (t.node anchor).leading ++ (t.node anchor).trailing, comment ∈ outer.items

/-- Trivia is passed at its token. -/
theorem of_trivia_mem_visit {anchor : Fin t.size} {comment : Trivia}
    (h : .trivia anchor comment ∈ t.visit true i) : (t.node anchor).isToken = true ∧
      ∃ outer ∈ (t.node anchor).leading ++ (t.node anchor).trailing, comment ∈ outer.items := by
  have htrivia : ∀ ts : List Trivia, .trivia anchor comment ∈ ts.flatMap (t.triviaEvents true i) →
      i = anchor ∧ ∃ outer ∈ ts, comment ∈ outer.items := by
    intro ts hts
    obtain ⟨outer, houter, hevent⟩ := List.mem_flatMap.1 hts
    obtain ⟨item, hitem, heq⟩ := List.mem_map.1 hevent
    cases heq
    exact ⟨rfl, outer, houter, hitem⟩
  rw [visit] at h
  split at h
  · rename_i htoken
    rw [List.mem_append, List.mem_cons] at h
    rcases h with h | h | h
    · obtain ⟨rfl, outer, houter, hitem⟩ := htrivia _ h
      exact ⟨htoken, outer, List.mem_append_left _ houter, hitem⟩
    · cases h
    · obtain ⟨rfl, outer, houter, hitem⟩ := htrivia _ h
      exact ⟨htoken, outer, List.mem_append_right _ houter, hitem⟩
  · cases List.mem_singleton.1 h

/-- **A finding is that of a comment at a token.** -/
theorem exists_anchor_of_findings? (h : t.findings? accepts = .ok found) {f : Finding}
    (hf : f ∈ found) : ∃ anchor comment, t.HasComment anchor comment ∧
      accepts comment.text = true ∧ f = t.findingAt comment anchor := by
  obtain ⟨events, hpasses, rfl⟩ := exists_passes_of_findings? h
  obtain ⟨⟨comment, anchor⟩, hmem, rfl⟩ := List.mem_map.1 hf
  obtain ⟨hmem, haccepts⟩ := List.mem_filter.1 hmem
  obtain ⟨event, hevent, hcomment⟩ := List.mem_filterMap.1 hmem
  cases event with
  | node | token => cases hcomment
  | trivia j item =>
    dsimp only at hcomment
    split at hcomment
    · rename_i hitem
      cases hcomment
      obtain ⟨i, hvisit⟩ := hpasses.exists_visit hevent
      obtain ⟨htoken, houter⟩ := of_trivia_mem_visit hvisit
      exact ⟨anchor, comment, ⟨htoken, hitem, houter⟩, haccepts, rfl⟩
    · cases hcomment

/-- Whether scopes are those of the innermost member, type and namespace around a node; types and
namespaces are not taken for members. -/
structure ScopesAround (t : Tree) (i : Fin t.size) (scopes : Scopes Int) : Prop where
  member : t.IsInnermost i (fun r ↦ r.isMember && !r.isType && !r.isNamespace) scopes.member
  type : t.IsInnermost i Role.isType scopes.type
  space : t.IsInnermost i Role.isNamespace scopes.space

theorem scopesAround (i : Fin t.size) : t.ScopesAround i (t.scopesAt i) where
  member := isInnermost_enclosing? i Role.isMemberOnly
  type := isInnermost_enclosing? i Role.isType
  space := isInnermost_enclosing? i Role.isNamespace

/-- In the tables of the languages types and namespaces are members. -/
theorem isMember_role (l : Language) (type : String)
    (h : ((Grammar.ofLanguage l).role type).isType = true ∨
      ((Grammar.ofLanguage l).role type).isNamespace = true) :
    ((Grammar.ofLanguage l).role type).isMember = true := by
  have htable : ∀ e ∈ (Grammar.ofLanguage l).roles, e.2.isMember = true := by
    cases l <;> decide
  rw [Grammar.role] at h ⊢
  cases hrole : (Grammar.ofLanguage l).role? type with
  | none =>
    rw [hrole] at h
    simp [Role.nothing] at h
  | some r =>
    obtain ⟨before, behind, hsplit, -⟩ := List.lookup_eq_some_iff.1 hrole
    exact htable (type, r) (hsplit ▸ List.mem_append_right before List.mem_cons_self)

/-- **Scopes are found on the way up, from the inside out.** Let rows be accepted as a tree, whatever
children they name. From any node the way up is a chain of parents as the rows name them, further in
front with each step; it begins at the parent of the node and ends at the root, and the root alone
has none. A lookup finds the first node on the way that is wanted, and nothing only if no node is.
Findings are those of comments at a token, and their scopes are on the way up from it: the
innermost member that is neither type nor namespace, though both are members in the tables of the
languages, the innermost type and the innermost namespace; all others of the kind are around them.
With any other roles the rows are accepted too, and the type stays the same if the same nodes on the
way are types, and the namespace if the same nodes are namespaces. -/
theorem scopes_on_ancestors {language : Option Language} {rows : Array Row}
    (h : ofRows language rows = .ok t) (i : Fin t.size) :
    ((i :: t.ancestors i).IsChain fun a b ↦
        ∃ r, rows[a.val]? = some r ∧ r.parent = some (b.val : Int)) ∧
      (i :: t.ancestors i).Pairwise (· > ·) ∧
      (t.ancestors i).head? = t.parent? i ∧
      (i :: t.ancestors i).getLast? = some t.root ∧
      (t.ancestors i = [] ↔ i = t.root) ∧
      (∀ wanted a, t.nearest? i wanted = some a ↔ ∃ nearer farther,
        t.ancestors i = nearer ++ a :: farther ∧ wanted a = true ∧
          ∀ b ∈ nearer, wanted b = false) ∧
      (∀ wanted, t.nearest? i wanted = none ↔ ∀ a ∈ t.ancestors i, wanted a = false) ∧
      (∀ wanted, t.enclosing? i wanted = t.nearest? i fun a ↦ wanted (t.node a)) ∧
      (∀ comment, t.ScopesAround i (t.findingAt comment i).scopes) ∧
      (∀ accepts found, t.findings? accepts = .ok found → ∀ f ∈ found, ∃ anchor comment,
        t.HasComment anchor comment ∧ f = t.findingAt comment anchor) ∧
      (∀ l type, let r := (Grammar.ofLanguage l).role type
        r.isType = true ∨ r.isNamespace = true → r.isMember = true) ∧
      ∀ roles : Nat → Role, ∃ t', ofRows language (withRoles roles rows) = .ok t' ∧
        ∀ (i' : Fin t'.size), i'.val = i.val →
          ((∀ a ∈ t.ancestors i, (roles a).isType = (t.node a).role.isType) →
            (t'.scopesAt i').type = (t.scopesAt i).type) ∧
          ((∀ a ∈ t.ancestors i, (roles a).isNamespace = (t.node a).role.isNamespace) →
            (t'.scopesAt i').space = (t.scopesAt i).space) := by
  refine ⟨?chain, pairwise_ancestors i, head?_ancestors i, getLast?_ancestors i, ?root,
    fun wanted a ↦ nearest?_eq_some_iff, fun wanted ↦ nearest?_eq_none_iff,
    enclosing?_eq_nearest? t i, fun comment ↦ scopesAround i, ?findings, isMember_role, ?roles⟩
  case chain =>
    refine (isChain_ancestors i).imp fun a b hab ↦ ?_
    obtain ⟨r, hr, -, hparent⟩ := parent?_of_ofRows h a
    rw [hab] at hparent
    exact ⟨r, hr, hparent⟩
  case root =>
    rw [← List.head?_eq_none_iff, head?_ancestors, parent?_eq_none_iff]
  case findings =>
    intro accepts found hfound f hf
    obtain ⟨anchor, comment, hcomment, -, heq⟩ := exists_anchor_of_findings? hfound hf
    exact ⟨anchor, comment, hcomment, heq⟩
  case roles =>
    intro roles
    obtain ⟨t', ht', hparents, hroles⟩ := exists_withRoles h roles
    refine ⟨t', ht', fun i' hi ↦ ⟨fun hsame ↦ ?_, fun hsame ↦ ?_⟩⟩
    · refine enclosing?_congr hparents hi fun a ha a' ha' ↦ ?_
      rw [hroles a', ha', hsame a ha]
    · refine enclosing?_congr hparents hi fun a ha a' ha' ↦ ?_
      rw [hroles a', ha', hsame a ha]

/-! ### A tree with children that do not fit -/

/-- The rows of a tree make this tree. -/
theorem ofRows_rows (t : Tree) :
    ofRows t.language (Draft.rows ⟨t.language, t.nodes⟩) = .ok t := by
  have hbuild := Draft.build_eq t
  rw [Draft.build] at hbuild
  split at hbuild
  · cases hbuild
  · exact Outcome.mapError_eq_ok_iff.1 hbuild

theorem eq_of_lt_four {i : Nat} (hpos : 0 < i) (h : i < 4) : i = 1 ∨ i = 2 ∨ i = 3 := by
  omega

/-- A namespace with a type, a member of it and a token in the member. The children that are named
do not fit: some are missing, one does not exist, and one is the root itself. -/
def unruly : Tree where
  nodes := #[
    ⟨"unit", .space, none, #[3, 0], .emptyAt 0 0, none, none, [], []⟩,
    ⟨"class", .type, some 0, #[9], .emptyAt 0 0, none, none, [], []⟩,
    ⟨"method", .member, some 1, #[], .emptyAt 0 0, none, none, [], []⟩,
    ⟨"x", .nothing, some 2, #[], .emptyAt 0 0, none, some "x",
      [⟨.singleLineComment, "// x", .onLine 0 0 4, []⟩], []⟩]
  language := none
  nonempty := by simp
  root_parent := rfl
  parent_before := by
    intro i h hpos
    rcases eq_of_lt_four hpos h with rfl | rfl | rfl
    · exact ⟨0, rfl, by decide⟩
    · exact ⟨1, rfl, by decide⟩
    · exact ⟨2, rfl, by decide⟩

/-- The rows of the small tree. -/
def unrulyRows : Array Row := Draft.rows ⟨none, unruly.nodes⟩

/-- All three scopes of the token are found. If type and namespace are no longer members, and the
member is a namespace, the type is found as before. -/
theorem scopes_on_ancestors_unruly :
    ofRows none unrulyRows = .ok unruly ∧
      (unruly.scopesAt ⟨3, by decide⟩) = ⟨some 2, some 1, some 0⟩ ∧
      unruly.enclosing? ⟨3, by decide⟩ (fun n ↦ n.type == "class") = some ⟨1, by decide⟩ ∧
      ∃ t', ofRows none (withRoles (fun k ↦ [⟨false, false, true⟩, ⟨false, true, false⟩,
          ⟨true, false, true⟩].getD k .nothing) unrulyRows) = .ok t' ∧
        ∀ i' : Fin t'.size, i'.val = 3 → (t'.scopesAt i').type = some 1 := by
  have hrows : ofRows none unrulyRows = .ok unruly := ofRows_rows unruly
  have hscopes : (unruly.scopesAt ⟨3, by decide⟩) = ⟨some 2, some 1, some 0⟩ := by decide +kernel
  have hway : unruly.ancestors ⟨3, by decide⟩ =
      [⟨2, by decide⟩, ⟨1, by decide⟩, ⟨0, by decide⟩] := by
    decide +kernel
  obtain ⟨-, -, -, -, -, hfirst, -, hlookup, -, -, -, hroles⟩ :=
    scopes_on_ancestors hrows ⟨3, by decide⟩
  obtain ⟨t', ht', hsame⟩ := hroles fun k ↦ [⟨false, false, true⟩, ⟨false, true, false⟩,
    ⟨true, false, true⟩].getD k .nothing
  refine ⟨hrows, hscopes, (hlookup _).trans ((hfirst _ _).2
    ⟨[⟨2, by decide⟩], [⟨0, by decide⟩], hway, ?_, ?_⟩), t', ht', fun i' hi ↦ ?_⟩
  · decide +kernel
  · decide +kernel
  · rw [(hsame i' hi).1 (by decide +kernel), hscopes]

end Tree

end CommentScope
