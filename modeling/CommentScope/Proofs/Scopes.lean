import CommentScope.Proofs.Around

/-!
# Scopes of findings are scopes of the source

The nodes that a finding names as its member, type and namespace are the innermost ones of these
kinds around its comment in the concrete tree, with adopted siblings below the node that adopts
them (`Grammar.findings_in_scope`). Interior nodes are identified by their rank: the one that comes
`k`-th in the concrete tree comes `k`-th among the interior nodes of the arena, with the same
entry.

The chain of parent links from a token is compared with the chain of concrete nodes while the
syntax is gone through (`Tree.findingsOf_lies`); the lookups then agree because they look through
chains that agree member by member.
-/

namespace CommentScope

open Annotated

namespace Tree

variable (t : Tree)

/-- The interior nodes of a tree, in the order of the arena. -/
def interior : List (Fin t.size) := (List.finRange t.size).filter fun i ↦ !(t.node i).isToken

/-- The position of a node that is around something, if there is such a node. -/
def placeOf (a : Option Around) : Option Int :=
  a.bind fun a ↦ (t.interior[a.rank]?).map fun i ↦ (i.val : Int)

/-- The nodes around something, looked up in its chain. -/
def scopesOf (around : List Around) : Scopes Int where
  member := t.placeOf (around.find? fun a ↦ a.role.isMemberOnly)
  type := t.placeOf (around.find? fun a ↦ a.role.isType)
  space := t.placeOf (around.find? fun a ↦ a.role.isNamespace)

/-- The findings that trivia give rise to: those items in them that are comments and wanted. -/
def findingsIn (accepts : Matcher) (w : Within Trivia) : List Finding :=
  (w.it.items.filter fun item ↦ item.isComment && accepts item.text).map fun item ↦
    ⟨item.text, item.span.startLine, t.scopesOf w.around⟩

/-! ### Ranks in the arena -/

/-- The number of interior nodes before a position. -/
def rankOf (i : Nat) : Nat :=
  (((List.finRange t.size).take i).filter fun i ↦ !(t.node i).isToken).length

variable {t} {parent : Option Nat} {i : Nat} {a : Annotated} {as : List Annotated}

theorem map_node (t : Tree) : (List.finRange t.size).map t.node = t.nodes.toList := by
  refine List.ext_getElem (by simp) fun i h₁ h₂ ↦ ?_
  rw [List.getElem_map, List.getElem_finRange]
  rfl

/-- Interior nodes are found under their rank. -/
theorem interior_rankOf (i : Fin t.size) (hi : (t.node i).isToken = false) :
    t.interior[t.rankOf i]? = some i := by
  have hsplit : List.finRange t.size = (List.finRange t.size).take i.val ++
      i :: (List.finRange t.size).drop (i.val + 1) := by
    have hdrop := List.drop_eq_getElem_cons (l := List.finRange t.size) (i := i.val) (by simp)
    rw [List.getElem_finRange] at hdrop
    exact (List.take_append_drop i.val _).symm.trans (congrArg _ hdrop)
  have hkeep : (!(t.node i).isToken) = true := by rw [hi]; rfl
  rw [interior, hsplit, List.filter_append,
    List.filter_cons_of_pos (p := fun j ↦ !(t.node j).isToken) hkeep, rankOf,
    List.getElem?_append_right (Nat.le_refl _), Nat.sub_self]
  rfl

theorem rankOf_eq (i : Nat) :
    t.rankOf i = ((t.nodes.toList.take i).filter fun n ↦ !n.isToken).length := by
  rw [rankOf, ← map_node, ← List.map_take, List.filter_map, List.length_map]
  rfl

/-- The interior nodes of laid out syntax are those of the syntax. -/
theorem inners_layoutAll (parent : Option Nat) (i : Nat) (as : List Annotated) :
    ((layoutAll parent i as).filter fun n ↦ !n.isToken).map Node.entry = innersAll as := by
  induction as using forest_induction generalizing parent i with
  | nil => rfl
  | cons a as ihc ih =>
    have hown : ((a.layout parent i).filter fun n ↦ !n.isToken).map Node.entry = a.inners := by
      cases a with
      | branch type role name span bs => exact congrArg _ (ihc (some i) (i + 1))
      | _ => rfl
    rw [layoutAll, List.filter_append, List.map_append, hown, ih, innersAll]

/-- Ranks go on by the number of interior nodes that lie between. -/
theorem rankOf_add (h : t.Lies parent i as) :
    t.rankOf (i + sizeAll as) = t.rankOf i + (innersAll as).length := by
  obtain ⟨rest, hrest⟩ := h
  have htake : t.nodes.toList.take (i + sizeAll as) =
      t.nodes.toList.take i ++ layoutAll parent i as := by
    rw [List.take_add, ← hrest, List.take_left' (length_layoutAll parent i as)]
  rw [rankOf_eq, rankOf_eq, htake, List.filter_append, List.length_append,
    ← inners_layoutAll parent i as, List.length_map]

theorem rankOf_succ (h : t.Lies parent i (a :: as)) (ha : (a.head parent i).isToken = false) :
    t.rankOf (i + 1) = t.rankOf i + 1 := by
  have hget : t.nodes.toList[i]? = some (a.head parent i) := by
    rw [Array.getElem?_toList]
    exact h.head
  rw [rankOf_eq, rankOf_eq, List.take_add_one, hget, List.filter_append, List.length_append]
  simp [ha]

/-- **The interior nodes of the arena are those of the syntax.** -/
theorem entries_interior (language : Option Language) (root : Annotated) :
    let t := root.toTree language
    t.interior.map (fun i ↦ (t.node i).entry) = root.inners := by
  intro t
  have hlayout := inners_layoutAll none 0 [root]
  rw [innersAll, innersAll, List.append_nil, ← nodes_toTree language root] at hlayout
  rw [← hlayout, ← map_node, List.filter_map, List.map_map]
  rfl

/-! ### Chains of parents -/

/-- The nodes around a node with the given parent, from that parent to the root. -/
def chain (t : Tree) : Option Nat → List (Fin t.size)
  | none => []
  | some p => if h : p < t.size then ⟨p, h⟩ :: t.ancestors ⟨p, h⟩ else []

theorem ancestors_eq_chain (i : Fin t.size) : t.ancestors i = t.chain (t.node i).parent := by
  rw [ancestors]
  split
  · rename_i hp
    rw [← t.val_parent? i, hp]
    rfl
  · rename_i p hp
    have hv : (t.node i).parent = some p.val := by rw [← t.val_parent? i, hp]; rfl
    rw [hv, chain, dif_pos p.isLt]

/-- Whether a chain of parents is the chain of nodes around something. -/
def Encloses (t : Tree) (parent : Option Nat) (around : List Around) : Prop :=
  List.Forall₂ (fun i a ↦ t.interior[a.rank]? = some i ∧ (t.node i).role = a.role)
    (t.chain parent) around

/-- Looking for a role in a chain finds the same node on either side. -/
theorem placeOf_find? {chain : List (Fin t.size)} {around : List Around}
    (h : List.Forall₂ (fun i a ↦ t.interior[a.rank]? = some i ∧ (t.node i).role = a.role) chain
      around) (p : Role → Bool) :
    (chain.find? fun i ↦ p (t.node i).role).map (fun i ↦ (i.val : Int)) =
      t.placeOf (around.find? fun a ↦ p a.role) := by
  induction h with
  | nil => rfl
  | @cons i a chain around hia _ ih =>
    obtain ⟨hplace, hrole⟩ := hia
    cases hp : p a.role with
    | true =>
      have hpi : p (t.node i).role = true := by rw [hrole, hp]
      rw [List.find?_cons_of_pos (p := fun j ↦ p (t.node j).role) hpi,
        List.find?_cons_of_pos (p := fun b : Around ↦ p b.role) hp]
      simp [placeOf, hplace]
    | false =>
      have hpi : p (t.node i).role = false := by rw [hrole, hp]
      rw [List.find?_cons_of_neg (by simp [hpi]), List.find?_cons_of_neg (by simp [hp]), ih]

/-- **The scopes at a node** are those of the chain around it. -/
theorem scopesAt_eq {i : Fin t.size} {around : List Around}
    (h : t.Encloses (t.node i).parent around) : t.scopesAt i = t.scopesOf around := by
  rw [Encloses, ← ancestors_eq_chain] at h
  rw [scopesAt, scopesOf, enclosingMember?, enclosingType?, enclosingNamespace?, enclosing?,
    enclosing?, enclosing?, placeOf_find? h Role.isMemberOnly, placeOf_find? h Role.isType,
    placeOf_find? h Role.isNamespace]

/-- What is below an interior node is around it as well, after the node itself. -/
theorem Encloses.below {around : List Around} (hparent : t.Encloses parent around)
    (h : t.Lies parent i (a :: as)) (ha : (a.head parent i).isToken = false) :
    t.Encloses (some i) (⟨t.rankOf i, (a.head parent i).role⟩ :: around) := by
  have hnode := h.node
  rw [Encloses, chain, dif_pos h.lt]
  refine .cons ⟨interior_rankOf ⟨i, h.lt⟩ (by rw [hnode, ha]), by rw [hnode]⟩ ?_
  rw [ancestors_eq_chain, hnode, parent_head]
  exact hparent

/-! ### Findings of laid out syntax -/

variable {accepts : Matcher}

theorem findingsOf_append (xs ys : List t.Event) :
    t.findingsOf accepts (xs ++ ys) = t.findingsOf accepts xs ++ t.findingsOf accepts ys := by
  rw [findingsOf, commentsOf, List.filterMap_append, List.filter_append, List.map_append]
  rfl

/-- The findings of the trivia of a token. -/
theorem findingsOf_trivia {i : Fin t.size} {around : List Around}
    (h : t.scopesAt i = t.scopesOf around) (ts : List Trivia) :
    t.findingsOf accepts (ts.flatMap (t.triviaEvents true i)) =
      (ts.map (Within.mk · around)).flatMap (t.findingsIn accepts) := by
  have hitems : ∀ items : List Trivia, t.findingsOf accepts (items.map (.trivia i)) =
      (items.filter fun item ↦ item.isComment && accepts item.text).map fun item ↦
        ⟨item.text, item.span.startLine, t.scopesOf around⟩ := by
    intro items
    induction items with
    | nil => rfl
    | cons item items ih =>
      rw [List.map_cons, ← List.singleton_append, findingsOf_append, ih]
      cases hc : item.isComment with
      | false => simp [findingsOf, commentsOf, hc]
      | true =>
        cases ha : accepts item.text with
        | false => simp [findingsOf, commentsOf, hc, ha]
        | true => simp [findingsOf, commentsOf, hc, ha, findingAt, h]
  induction ts with
  | nil => rfl
  | cons item ts ih =>
    rw [List.flatMap_cons, findingsOf_append, ih, List.map_cons, List.flatMap_cons]
    exact congrArg (· ++ _) (hitems item.items)

/-- The findings at a token. -/
theorem findingsOf_visit {i : Fin t.size} {around : List Around}
    (h : t.Encloses (t.node i).parent around) (hi : (t.node i).isToken = true) :
    t.findingsOf accepts (t.visit true i) =
      (((t.node i).leading ++ (t.node i).trailing).map (Within.mk · around)).flatMap
        (t.findingsIn accepts) := by
  have hscopes := scopesAt_eq h
  rw [visit, if_pos hi, ← List.singleton_append, findingsOf_append, findingsOf_append,
    findingsOf_trivia hscopes, findingsOf_trivia hscopes, List.map_append, List.flatMap_append]
  rfl

/-- **The findings of pieces of syntax** are those of their trivia, each with the scopes of the
chain around it. The chain of parents of the place where the pieces lie is given; below a branch,
the branch comes in front of it. -/
theorem findingsOf_lies (h : t.Lies parent i as) {around : List Around}
    (hparent : t.Encloses parent around) :
    t.findingsOf accepts ((List.range' i (sizeAll as)).flatMap (t.visitAt true)) =
      (notesAll around (t.rankOf i) as).flatMap (t.findingsIn accepts) := by
  induction as using forest_induction generalizing parent i around with
  | nil => rfl
  | cons a as ihc ih =>
    have hnode := h.node
    have hvisit : t.visitAt true i = t.visit true ⟨i, h.lt⟩ := by rw [visitAt, dif_pos h.lt]
    have henc : t.Encloses (t.node ⟨i, h.lt⟩).parent around := by rwa [hnode, parent_head]
    have hrange : List.range' i (sizeAll (a :: as)) =
        List.range' i a.size ++ List.range' (i + a.size) (sizeAll as) := by
      rw [sizeAll, List.range'_append_1]
    have hone : t.Lies parent i [a] := by
      obtain ⟨rest, hrest⟩ := h
      exact ⟨layoutAll parent (i + a.size) as ++ rest, by simpa [layoutAll] using hrest⟩
    have hrank : t.rankOf (i + a.size) = t.rankOf i + a.inners.length := by
      have hadd := rankOf_add hone
      rwa [sizeAll, sizeAll, Nat.add_zero, innersAll, innersAll, List.append_nil] at hadd
    have hown : t.findingsOf accepts ((List.range' i a.size).flatMap (t.visitAt true)) =
        (notes around (t.rankOf i) a).flatMap (t.findingsIn accepts) := by
      cases a with
      | token type text span leading trailing =>
        show t.findingsOf accepts (t.visitAt true i ++ []) = _
        rw [List.append_nil, hvisit, findingsOf_visit henc (by rw [hnode]; rfl), hnode]
        rfl
      | inserted filler line column leading =>
        show t.findingsOf accepts (t.visitAt true i ++ []) = _
        rw [List.append_nil, hvisit, findingsOf_visit henc (by rw [hnode]; rfl), hnode]
        show ((leading ++ []).map (Within.mk · around)).flatMap _ = _
        rw [List.append_nil]
        rfl
      | branch type role name span bs =>
        have hbelow := ihc h.below (hparent.below h rfl)
        rw [rankOf_succ h rfl] at hbelow
        rw [Annotated.size, List.range'_succ, List.flatMap_cons, findingsOf_append, hvisit, visit,
          hnode]
        exact hbelow
    rw [hrange, List.flatMap_append, findingsOf_append, hown, ih h.behind hparent, hrank, notesAll,
      List.flatMap_append]

/-- **The findings of a tree** are those of the trivia of the syntax that was laid out. -/
theorem findings?_toTree (language : Option Language) (type : String) (role : Role)
    (name : Option String) (span : Span) (as : List Annotated) (accepts : Matcher) :
    let t := toTree language (.branch type role name span as)
    t.findings? accepts = .ok ((notesAll [⟨0, role⟩] 1 as).flatMap (t.findingsIn accepts)) := by
  intro t
  have henc : t.Encloses none [] := .nil
  have hfind : t.findingsOf accepts ((List.range' 0
      (sizeAll [.branch type role name span as])).flatMap (t.visitAt true)) = _ :=
    findingsOf_lies (lies_toTree language _) henc
  have hsize : sizeAll [.branch type role name span as] = t.size := by
    rw [size_toTree, sizeAll, sizeAll, Nat.add_zero]
  have hnotes : notesAll [] (t.rankOf 0) [.branch type role name span as] =
      notesAll [⟨0, role⟩] 1 as := List.append_nil _
  rw [hsize, flatMap_visitAt, hnotes] at hfind
  rw [findings?, walk, walkRounds_toTree _ _ true Nat.one_pos]
  exact congrArg Except.ok hfind

end Tree

/-! ### Findings of concrete trees -/

namespace Grammar

open Concrete

/-- What the interior nodes of a concrete tree say is what the interior nodes of the arena say. -/
theorem interior_entries {g : Grammar} {source : ByteArray} {c : Concrete} {t : Tree}
    (h : g.tree? source c = .ok t) :
    ((c.landmarks g source).filter Landmark.isInterior).mapM (Landmark.passage? g source) =
      .ok (t.interior.map fun i ↦ .node (t.node i).entry) := by
  obtain ⟨span, below, hspan, hbelow, rfl⟩ := (tree?_eq_ok_iff g source).1 h
  obtain ⟨⟨lead, as⟩, hsiblings, rfl⟩ := Outcome.map_eq_ok_iff.1 hbelow
  have hinners := (reads_of_siblings hsiblings).inners
  have hentries := Tree.entries_interior (some g.language)
    (.branch c.label.type (g.role c.label.type) none span as)
  rw [Concrete.landmarks, List.filter_cons_of_pos (by rfl)]
  refine Outcome.mapM_cons_eq_ok_iff.2 ⟨_, _, Landmark.passage?_root hspan, hinners, ?_⟩
  have hmap := congrArg (List.map Passage.node) hentries
  rw [List.map_map] at hmap
  exact hmap

/-- **The findings of a tree** are those of the trivia of its comment blocks, block by block. The
blocks come in their order if the rows of the concrete tree are in order. -/
theorem exists_findings? {g : Grammar} {source : ByteArray} {c : Concrete} {t : Tree}
    (h : g.tree? source c = .ok t) (accepts : Matcher) :
    ∃ notes passed, (c.blocks g source).mapM (Within.trivia? g source) = .ok notes ∧
      t.findings? accepts = .ok (passed.flatMap (t.findingsIn accepts)) ∧
      passed.Perm notes ∧ (c.RowsInOrder → passed = notes) := by
  obtain ⟨span, below, -, hbelow, rfl⟩ := (tree?_eq_ok_iff g source).1 h
  obtain ⟨⟨lead, as⟩, hsiblings, rfl⟩ := Outcome.map_eq_ok_iff.1 hbelow
  have hreads := reads_of_siblings hsiblings
  obtain ⟨notes, hnotes, hagree⟩ := hreads.notes [⟨0, g.role c.label.type⟩] 1
  rw [hreads.lead_eq_nil, List.map_nil, List.nil_append] at hagree
  refine ⟨notes, _, hnotes, Tree.findings?_toTree _ _ _ _ _ _ accepts, hagree.1.symm, ?_⟩
  intro hrows
  exact (hagree.2 (follows_none hrows.children)).symm

/-- **Findings are reported in the scopes that their comments have in the source.** The interior
nodes of the concrete tree are those of the arena, one by one and in order. The findings are those
of the trivia of the comment blocks, block by block, each with the innermost member, type and
namespace among the nodes around its block, the root included, and with none only if none of these
nodes is one. This holds wherever the trivia were attached; if the rows are in order, the blocks
come in their order. -/
theorem findings_in_scope {g : Grammar} {source : ByteArray} {c : Concrete} {t : Tree}
    (h : g.tree? source c = .ok t) (accepts : Matcher) :
    ((c.landmarks g source).filter Landmark.isInterior).mapM (Landmark.passage? g source) =
        .ok (t.interior.map fun i ↦ .node (t.node i).entry) ∧
      (∀ b ∈ c.blocks g source, ∀ a ∈ b.around, a.rank < t.interior.length) ∧
      ∃ notes passed, (c.blocks g source).mapM (Within.trivia? g source) = .ok notes ∧
        t.findings? accepts = .ok (passed.flatMap (t.findingsIn accepts)) ∧
        passed.Perm notes ∧ (c.RowsInOrder → passed = notes) := by
  have hentries := interior_entries h
  refine ⟨hentries, ?_, exists_findings? h accepts⟩
  intro b hb a ha
  have hlen := Outcome.length_of_mapM_eq_ok hentries
  rw [List.length_map, Concrete.landmarks, List.filter_cons_of_pos (by rfl), List.length_cons]
    at hlen
  rw [hlen]
  rcases Arranged.rank_lt_of_mem_blocksAll ha _ hb with hroot | hlt
  · cases List.mem_singleton.1 hroot
    exact Nat.succ_pos _
  · rw [Nat.add_comm]
    exact hlt

/-- The findings of the small file are reported in the scopes of its comments. -/
theorem findings_in_scope_sample : sample.RowsInOrder ∧
    ∃ t notes, csharp.tree? sampleText.toUTF8 sample = .ok t ∧
      (sample.blocks csharp sampleText.toUTF8).mapM (Within.trivia? csharp sampleText.toUTF8) =
        .ok notes ∧
      t.findings? Markers.standard.accepts =
        .ok (notes.flatMap (t.findingsIn Markers.standard.accepts)) := by
  obtain ⟨t, ht⟩ := Outcome.exists_eq_ok sample_isOk
  have hrows : sample.RowsInOrder := by decide
  obtain ⟨-, -, notes, passed, hnotes, hfound, -, heq⟩ :=
    findings_in_scope ht Markers.standard.accepts
  rw [heq hrows] at hfound
  exact ⟨hrows, t, notes, ht, hnotes, hfound⟩

/-- The documentation of the class stands in the namespace that adopts the class. -/
example : ((csharp.tree? sampleText.toUTF8 sample).toOption.bind fun t ↦
    (t.findings? Markers.standard.accepts).toOption) =
      some [⟨"/// TODO\n/// a", 1, ⟨none, none, some 1⟩⟩] := by
  decide +kernel

end Grammar

end CommentScope
