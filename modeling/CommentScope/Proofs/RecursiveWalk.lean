import CommentScope.Proofs.Ancestry
import CommentScope.Proofs.DraftRuns
import CommentScope.Tree.Visitor
import Mathlib.Data.Fintype.EquivFin

/-!
# Walks as a recursion

Walks are run on a stack. On a tree whose children exist and in which no node is below itself they
pass what a recursion over nodes and nested trivia yields (`Tree.preorder`): a node before its
children, trivia where it stands at its token, nested trivia behind the trivia that it is in. Each
event is marked with the number of trivia items around it, so that a walk that does not go into
trivia passes the events with none (`Tree.shown`). The search for tokens and the visitors keep to
the order of the walk (`Tree.tokens_eq`, `Tree.Visitor.walk_eq`).

In trees that are drafted or read from concrete syntax the children of a node are the nodes whose
parent it is. There the recursion comes to every node once, and what it passes for a node is what
there is to pass at this node and below it (`Tree.exists_around`).
-/

namespace CommentScope

namespace Tree

variable {t : Tree} {i j c p : Fin t.size} {descend : Bool}

/-! ### Trees whose children can be followed down -/

/-- The children of a node, those left out that do not exist. -/
def listed (t : Tree) (i : Fin t.size) : List (Fin t.size) :=
  (t.node i).children.toList.filterMap t.resolve?

/-- Whether all children of a tree exist and no node is below itself. -/
structure Grounded (t : Tree) : Prop where
  exist : ∀ i, ∀ ref ∈ (t.node i).children.toList, ∃ c, t.resolve? ref = some c
  acyclic : ∀ i, ¬ Relation.TransGen (fun c p ↦ c ∈ t.listed p) i i

theorem Grounded.wellFounded (h : t.Grounded) :
    WellFounded fun c p : Fin t.size ↦ c ∈ t.listed p := by
  have : Std.Irrefl (Relation.TransGen fun c p : Fin t.size ↦ c ∈ t.listed p) := ⟨h.acyclic⟩
  have hwell := Finite.wellFounded_of_trans_of_irrefl
    (Relation.TransGen fun c p : Fin t.size ↦ c ∈ t.listed p)
  exact Subrelation.wf (fun hlisted ↦ Relation.TransGen.single hlisted) hwell

/-! ### The recursion -/

mutual

/-- A trivia item of a token with `depth` items around it, and then what is nested in it. -/
def inTrivia (i : Fin t.size) (depth : Nat) : Trivia → List (Nat × t.Event)
  | ⟨kind, text, span, parts⟩ =>
    (depth, .trivia i ⟨kind, text, span, parts⟩) :: inAllTrivia i (depth + 1) parts

/-- Trivia items of a token with `depth` items around them, each with what is nested in it. -/
def inAllTrivia (i : Fin t.size) (depth : Nat) : List Trivia → List (Nat × t.Event)
  | [] => []
  | item :: items => inTrivia i depth item ++ inAllTrivia i depth items

end

/-- What there is to pass at a node: the node, or a token between its trivia. -/
def own (t : Tree) (i : Fin t.size) : List (Nat × t.Event) :=
  if (t.node i).isToken then
    inAllTrivia i 0 (t.node i).leading ++ (0, .token i) :: inAllTrivia i 0 (t.node i).trailing
  else [(0, .node i)]

/-- The pre-order from a node on: what there is to pass at the node, and then the same for its
children from the first to the last. -/
def preorder (h : t.Grounded) (i : Fin t.size) : List (Nat × t.Event) :=
  t.own i ++ (t.listed i).attach.flatMap fun c ↦ preorder h c.1
termination_by h.wellFounded.wrap i
decreasing_by exact c.2

theorem preorder_eq (h : t.Grounded) (i : Fin t.size) :
    preorder h i = t.own i ++ (t.listed i).flatMap (preorder h) := by
  rw [preorder, List.flatMap_subtype (g := preorder h) fun _ _ ↦ rfl, List.unattach_attach]

/-- The events that are shown if nested trivia is gone into, or those with no trivia around them. -/
def shown (descend : Bool) (marked : List (Nat × t.Event)) : List t.Event :=
  (if descend then marked else marked.filter fun e ↦ e.1 == 0).map Prod.snd

theorem shown_append (xs ys : List (Nat × t.Event)) :
    shown descend (xs ++ ys) = shown descend xs ++ shown descend ys := by
  cases descend with
  | true => exact List.map_append
  | false =>
    rw [shown, if_neg Bool.false_ne_true, List.filter_append, List.map_append]
    rfl

theorem shown_flatMap {α : Type} (f : α → List (Nat × t.Event)) (as : List α) :
    shown descend (as.flatMap f) = as.flatMap fun a ↦ shown descend (f a) := by
  induction as with
  | nil => cases descend <;> rfl
  | cons a as ih => rw [List.flatMap_cons, shown_append, ih, List.flatMap_cons]

theorem shown_preorder (h : t.Grounded) (i : Fin t.size) :
    shown descend (preorder h i) = shown descend (t.own i) ++
      (t.listed i).flatMap fun c ↦ shown descend (preorder h c) := by
  rw [preorder_eq, shown_append, shown_flatMap]

/-! ### Nested trivia -/

mutual

theorem map_inTrivia (i : Fin t.size) (depth : Nat) :
    ∀ item : Trivia, (inTrivia i depth item).map Prod.snd = item.items.map (.trivia i)
  | ⟨kind, text, span, parts⟩ => by
    rw [inTrivia, List.map_cons, map_inAllTrivia i (depth + 1) parts, Trivia.items, List.map_cons]

theorem map_inAllTrivia (i : Fin t.size) (depth : Nat) : ∀ items : List Trivia,
    (inAllTrivia i depth items).map Prod.snd = (Trivia.itemsOfAll items).map (.trivia i)
  | [] => rfl
  | item :: items => by
    rw [inAllTrivia, List.map_append, map_inTrivia i depth item, map_inAllTrivia i depth items,
      Trivia.itemsOfAll, List.map_append]

end

mutual

/-- Everything nested in an item has at least as many items around it. -/
theorem depth_le_inTrivia (i : Fin t.size) (depth : Nat) :
    ∀ item : Trivia, ∀ e ∈ inTrivia i depth item, depth ≤ e.1
  | ⟨kind, text, span, parts⟩ => by
    rw [inTrivia, List.forall_mem_cons]
    exact ⟨Nat.le_refl depth, fun e he ↦
      Nat.le_of_succ_le (depth_le_inAllTrivia i (depth + 1) parts e he)⟩

theorem depth_le_inAllTrivia (i : Fin t.size) (depth : Nat) :
    ∀ items : List Trivia, ∀ e ∈ inAllTrivia i depth items, depth ≤ e.1
  | [] => fun _ he ↦ absurd he List.not_mem_nil
  | item :: items => by
    rw [inAllTrivia, List.forall_mem_append]
    exact ⟨depth_le_inTrivia i depth item, depth_le_inAllTrivia i depth items⟩

end

/-- Of an item alone only the outermost is shown if nested trivia is not gone into. -/
theorem shown_inTrivia (descend : Bool) (i : Fin t.size) (item : Trivia) :
    shown descend (inTrivia i 0 item) = t.triviaEvents descend i item := by
  cases descend with
  | true => exact map_inTrivia i 0 item
  | false =>
    obtain ⟨kind, text, span, parts⟩ := item
    have hnested : (inAllTrivia (t := t) i 1 parts).filter (fun e ↦ e.1 == 0) = [] := by
      rw [List.filter_eq_nil_iff]
      intro e he
      have hdepth := depth_le_inAllTrivia i 1 parts e he
      simp only [beq_iff_eq]
      omega
    rw [shown, if_neg Bool.false_ne_true, inTrivia, List.filter_cons_of_pos (by rfl), hnested]
    rfl

theorem shown_inAllTrivia (descend : Bool) (i : Fin t.size) (items : List Trivia) :
    shown descend (inAllTrivia i 0 items) = items.flatMap (t.triviaEvents descend i) := by
  induction items with
  | nil => cases descend <;> rfl
  | cons item items ih =>
    rw [inAllTrivia, shown_append, shown_inTrivia, ih, List.flatMap_cons]

/-- What is shown of a node is what a walk passes at it. -/
theorem shown_own (descend : Bool) (i : Fin t.size) :
    shown descend (t.own i) = t.visit descend i := by
  rw [own, visit]
  split
  · rw [← List.singleton_append, shown_append, shown_append, shown_inAllTrivia,
      shown_inAllTrivia]
    cases descend <;> rfl
  · cases descend <;> rfl

/-! ### The stack follows the recursion -/

/-- The way through children that exist is the way through one after the other. -/
theorem Passes.of_refs {refs : List Int} {below : Fin t.size → List t.Event}
    (hrefs : ∀ ref ∈ refs, ∃ c, t.resolve? ref = some c)
    (h : ∀ c ∈ refs.filterMap t.resolve?,
      t.Passes descend (t.node c).children.toList (below c) .finished) :
    t.Passes descend refs
      ((refs.filterMap t.resolve?).flatMap fun c ↦ t.visit descend c ++ below c) .finished := by
  induction refs with
  | nil => exact .nil
  | cons ref refs ih =>
    obtain ⟨⟨c, hc⟩, hrefs⟩ := List.forall_mem_cons.1 hrefs
    rw [List.filterMap_cons_some hc] at h ⊢
    obtain ⟨hbelow, hbehind⟩ := List.forall_mem_cons.1 h
    rw [List.flatMap_cons, List.append_assoc]
    exact .cons hc hbelow (ih hrefs hbehind)

/-- **What is below a node is passed as the recursion says.** -/
theorem Grounded.passes (h : t.Grounded) (descend : Bool) (i : Fin t.size) :
    t.Passes descend (t.node i).children.toList
      ((t.listed i).flatMap fun c ↦ shown descend (preorder h c)) .finished := by
  induction i using h.wellFounded.induction with
  | _ i ih =>
    have hpasses := Passes.of_refs (h.exist i) ih
    simp only [← shown_own, ← shown_preorder] at hpasses
    exact hpasses

/-- **A walk is the recursion from the root.** -/
theorem Grounded.walk_eq (h : t.Grounded) (descend : Bool) :
    t.walk descend = ⟨shown descend (preorder h t.root), .finished⟩ := by
  have hroot : t.resolve? 0 = some t.root := resolve?_natCast t.nonempty
  have hpasses := Passes.cons hroot (h.passes descend t.root) .nil
  rw [List.append_nil, ← shown_own, ← shown_preorder] at hpasses
  exact ((walkRounds_eq_iff Nat.one_pos).2 hpasses).1

/-! ### Consumers of a walk -/

/-- The search for tokens goes along with a walk. -/
theorem searchStack_eq (descend : Bool) (seen : Array t.Event) (stack : List (Nat × Int)) :
    t.searchStack (t.tokensOf seen.toList).toArray stack =
      ⟨t.tokensOf (t.runStack descend seen stack).events,
        (t.runStack descend seen stack).ending⟩ := by
  fun_induction runStack t descend seen stack with
  | case1 seen => rw [searchStack]
  | case2 seen depth ref stack hnone =>
    rw [searchStack.eq_def]
    simp only [hnone]
  | case3 seen ref stack i hi =>
    rw [searchStack.eq_def]
    simp only [hi]
  | case4 seen ref stack i depth hi ih =>
    have hseen : (t.tokensOf (seen ++ (t.visit descend i).toArray).toList).toArray =
        if (t.node i).isToken then (t.tokensOf seen.toList).toArray.push i
        else (t.tokensOf seen.toList).toArray := by
      rw [Array.toList_append, tokensOf_append, tokensOf_visit]
      split <;> simp
    rw [searchStack.eq_def]
    simp only [hi]
    rw [← hseen, ih]

/-- **The tokens are those that a walk passes**, on any tree. -/
theorem tokens_eq (t : Tree) (descend : Bool) :
    t.tokens = ⟨t.tokensOf (t.walk descend).events, (t.walk descend).ending⟩ := by
  have hsearch := searchStack_eq descend (#[] : Array t.Event) [(t.size, 0)]
  rw [walk, walkRounds, Nat.one_mul]
  exact hsearch

theorem exists_of_mem_triviaEvents {ts : List Trivia} {event : t.Event}
    (h : event ∈ ts.flatMap (t.triviaEvents descend i)) : ∃ item, event = .trivia i item := by
  obtain ⟨item, -, hevent⟩ := List.mem_flatMap.1 h
  rw [triviaEvents] at hevent
  split at hevent
  · obtain ⟨inner, -, rfl⟩ := List.mem_map.1 hevent
    exact ⟨inner, rfl⟩
  · exact ⟨item, List.mem_singleton.1 hevent⟩

/-- At a node there are trivia of a token, a token, or a node that is none. -/
theorem cases_of_mem_visit {event : t.Event} (h : event ∈ t.visit descend i) :
    (∃ item, event = .trivia i item) ∨ ((t.node i).isToken = true ∧ event = .token i) ∨
      ((t.node i).isToken = false ∧ event = .node i) := by
  rw [visit] at h
  split at h
  · rename_i htoken
    rw [List.mem_append, List.mem_cons] at h
    rcases h with h | rfl | h
    · exact .inl (exists_of_mem_triviaEvents h)
    · exact .inr (.inl ⟨htoken, rfl⟩)
    · exact .inl (exists_of_mem_triviaEvents h)
  · rename_i hnode
    exact .inr (.inr ⟨Bool.eq_false_iff.2 hnode, List.mem_singleton.1 h⟩)

namespace Visitor

variable {σ : Type}

/-- What a visitor does at an event. -/
def fire (v : t.Visitor σ) (s : σ) : t.Event → σ
  | .node i => v.node i s
  | .token i => v.token i s
  | .trivia i item => v.trivia item i s

/-- A visitor that is told of an event does what it does at such an event. -/
theorem tell_pair (v : t.Visitor σ) (s : σ) {event : t.Event} (h : event ∈ t.visit descend i) :
    v.tell s event.pair = v.fire s event := by
  rcases cases_of_mem_visit h with ⟨item, rfl⟩ | ⟨htoken, rfl⟩ | ⟨hnode, rfl⟩
  · rfl
  · exact if_pos htoken
  · exact if_neg (Bool.not_eq_true _ ▸ hnode)

/-- **A visitor does what it does at the events of a walk**, one after the other. -/
theorem walk_eq (h : t.Grounded) (v : t.Visitor σ) (descend : Bool) (s : σ) :
    v.walk descend s = ((t.walk descend).events.foldl v.fire s, .finished) := by
  have hpasses := (walkRounds_eq_iff Nat.one_pos).1 ⟨h.walk_eq descend, by decide⟩
  have htold : ∀ e ∈ shown descend (preorder h t.root), ∀ s, v.tell s e.pair = v.fire s e := by
    intro e he s
    obtain ⟨i, hi⟩ := hpasses.exists_visit he
    exact v.tell_pair s hi
  rw [walk, h.walk_eq descend]
  show (((shown descend (preorder h t.root)).map Event.pair).foldl v.tell s, _) = _
  rw [List.foldl_map]
  generalize shown descend (preorder h t.root) = events at htold
  congr 1
  induction events generalizing s with
  | nil => rfl
  | cons e events ih =>
    obtain ⟨he, hevents⟩ := List.forall_mem_cons.1 htold
    rw [List.foldl_cons, List.foldl_cons, he, ih _ hevents]

end Visitor

/-! ### Within a node -/

/-- Whether a node is a given node or below it. -/
def IsWithin (t : Tree) (i j : Fin t.size) : Prop := j = i ∨ i ∈ t.ancestors j

theorem isWithin_self (i : Fin t.size) : t.IsWithin i i := .inl rfl

theorem isWithin_root (j : Fin t.size) : t.IsWithin t.root j := by
  have hlast := getLast?_ancestors j
  by_cases hj : j = t.root
  · exact .inl hj
  · rcases List.mem_cons.1 (List.mem_of_getLast? hlast) with hroot | hroot
    · exact absurd hroot.symm hj
    · exact .inr hroot

theorem IsWithin.of_child (hp : t.parent? c = some p) (h : t.IsWithin c j) : t.IsWithin p j := by
  have hmem : p ∈ t.ancestors c := by
    rw [ancestors_of_some hp]
    exact List.mem_cons_self
  rcases h with rfl | h
  · exact .inr hmem
  · exact .inr (mem_ancestors_trans hmem h)

/-- What is within a node is the node or within one of its children. -/
theorem IsWithin.cases (h : t.IsWithin p j) :
    j = p ∨ ∃ c, t.parent? c = some p ∧ t.IsWithin c j := by
  induction j using parent_induction with
  | root =>
    rcases h with h | h
    · exact .inl h
    · rw [ancestors_of_none t.parent?_root] at h
      cases h
  | child j q hq ih =>
    rcases h with h | h
    · exact .inl h
    · rw [ancestors_of_some hq, List.mem_cons] at h
      rcases h with rfl | h
      · exact .inr ⟨j, hq, isWithin_self j⟩
      · rcases ih (.inr h) with rfl | ⟨c, hc, hwithin⟩
        · exact .inr ⟨j, hq, isWithin_self j⟩
        · refine .inr ⟨c, hc, .inr ?_⟩
          rw [ancestors_of_some hq, List.mem_cons]
          exact hwithin.imp Eq.symm id

/-- A parent is not within its child. -/
theorem not_isWithin_parent (hp : t.parent? c = some p) : ¬ t.IsWithin c p := by
  have hlt := t.parent?_lt hp
  rintro (rfl | h)
  · exact lt_irrefl _ hlt
  · exact lt_irrefl _ (hlt.trans (lt_of_mem_ancestors h))

/-- A child is not below a child of the same parent. -/
theorem not_mem_ancestors_sibling (hc : t.parent? c = some p) (hi : t.parent? i = some p) :
    c ∉ t.ancestors i := by
  rw [ancestors_of_some hi, List.mem_cons, eq_comm]
  exact not_isWithin_parent hc

/-- **Nothing is within two children of a node.** -/
theorem IsWithin.eq_of_parent (hc : t.parent? c = some p) (hi : t.parent? i = some p)
    (h : t.IsWithin c j) (h' : t.IsWithin i j) : c = i := by
  rcases h with rfl | h
  · rcases h' with rfl | h'
    · rfl
    · exact absurd h' (not_mem_ancestors_sibling hi hc)
  · rcases h' with rfl | h'
    · exact absurd h (not_mem_ancestors_sibling hc hi)
    · rcases ancestors_comparable h h' with heq | hmem | hmem
      · exact heq
      · exact absurd hmem (not_mem_ancestors_sibling hc hi)
      · exact absurd hmem (not_mem_ancestors_sibling hi hc)

/-! ### Trees whose links agree -/

/-- Whether the children of a tree agree with its parents: a child that a node lists exists, is not
counted from the end and has this node as its parent, and a node with a parent is listed there
once. Nothing is said of the order of children, and tokens may have some. -/
structure LinksAgree (t : Tree) : Prop where
  child : ∀ i, ∀ ref ∈ (t.node i).children.toList, ∃ c : Fin t.size,
    ref = (c.val : Int) ∧ t.parent? c = some i
  once : ∀ c p, t.parent? c = some p → (t.node p).children.toList.count (c.val : Int) = 1

/-- A position is known by the reference that counts from the start. -/
theorem ref_injective : Function.Injective fun c : Fin t.size ↦ (c.val : Int) := fun _ _ h ↦
  Fin.ext (Int.ofNat_inj.1 h)

/-- The children of a node are the nodes whose parent it is, each once. -/
theorem LinksAgree.listed (h : t.LinksAgree) (i : Fin t.size) :
    (t.listed i).Nodup ∧ ∀ c, c ∈ t.listed i ↔ t.parent? c = some i := by
  -- The positions that are listed are the references themselves.
  have hrefs : (t.listed i).map (fun c : Fin t.size ↦ (c.val : Int)) =
      (t.node i).children.toList := by
    have hchild := h.child i
    rw [Tree.listed]
    generalize (t.node i).children.toList = refs at hchild
    induction refs with
    | nil => rfl
    | cons ref refs ih =>
      obtain ⟨⟨c, rfl, -⟩, hrest⟩ := List.forall_mem_cons.1 hchild
      rw [List.filterMap_cons_some (resolve?_natCast c.isLt), List.map_cons, ih hrest]
  have hmem : ∀ c, c ∈ t.listed i → t.parent? c = some i := by
    intro c hc
    obtain ⟨c', heq, hparent⟩ := h.child i c.val (hrefs ▸ List.mem_map_of_mem hc)
    rwa [ref_injective heq]
  have honce : ∀ c, t.parent? c = some i → (t.listed i).count c = 1 := by
    intro c hc
    rw [← List.count_map_of_injective _ _ ref_injective, hrefs, h.once c i hc]
  refine ⟨List.nodup_iff_count_le_one.2 fun c ↦ ?_, fun c ↦ ⟨hmem c, fun hc ↦ ?_⟩⟩
  · by_cases hc : c ∈ t.listed i
    · exact (honce c (hmem c hc)).le
    · rw [List.count_eq_zero_of_not_mem hc]
      exact Nat.zero_le 1
  · exact List.count_pos_iff.1 (by rw [honce c hc]; exact Nat.one_pos)

/-- **A tree whose links agree can be followed down.** -/
theorem LinksAgree.grounded (h : t.LinksAgree) : t.Grounded := by
  refine ⟨fun i ref href ↦ ?_, fun i hcycle ↦ ?_⟩
  · obtain ⟨c, rfl, -⟩ := h.child i ref href
    exact ⟨c, resolve?_natCast c.isLt⟩
  · have hlt : ∀ {c p}, Relation.TransGen (fun c p ↦ c ∈ t.listed p) c p → p < c := by
      intro c p hbelow
      induction hbelow with
      | single hc => exact t.parent?_lt (((h.listed _).2 _).1 hc)
      | tail _ hc ih => exact (t.parent?_lt (((h.listed _).2 _).1 hc)).trans ih
    exact lt_irrefl i (hlt hcycle)

/-- The links of a well linked tree agree. -/
theorem WellLinked.linksAgree (h : t.WellLinked) : t.LinksAgree where
  child i ref href := by
    obtain ⟨cs, hcs, -, hmem⟩ := h.children i
    rw [hcs] at href
    obtain ⟨c, hc, rfl⟩ := List.mem_map.1 href
    exact ⟨c, rfl, (hmem c).1 hc⟩
  once c p hp := by
    obtain ⟨cs, hcs, hsorted, hmem⟩ := h.children p
    rw [hcs, List.count_map_of_injective _ _ ref_injective]
    exact List.count_eq_one_of_mem (hsorted.imp ne_of_lt) ((hmem c).2 hp)

theorem WellLinked.listed (h : t.WellLinked) (i : Fin t.size) :
    (t.listed i).Nodup ∧ ∀ c, c ∈ t.listed i ↔ t.parent? c = some i :=
  h.linksAgree.listed i

theorem WellLinked.grounded (h : t.WellLinked) : t.Grounded := h.linksAgree.grounded

/-- The nodes and tokens that are passed. -/
def visited (events : List t.Event) : List (Fin t.size) :=
  events.filterMap fun
    | .node i => some i
    | .token i => some i
    | .trivia _ _ => none

theorem visited_append (xs ys : List t.Event) :
    visited (xs ++ ys) = visited xs ++ visited ys :=
  List.filterMap_append

theorem visited_flatMap {α : Type} (f : α → List t.Event) (as : List α) :
    visited (as.flatMap f) = as.flatMap fun a ↦ visited (f a) :=
  List.filterMap_flatMap

theorem visited_triviaEvents (ts : List Trivia) :
    visited (ts.flatMap (t.triviaEvents descend i)) = [] := by
  rw [visited, List.filterMap_eq_nil_iff]
  intro event hevent
  obtain ⟨item, rfl⟩ := exists_of_mem_triviaEvents hevent
  rfl

/-- At each node it alone is visited. -/
theorem visited_own (descend : Bool) (i : Fin t.size) : visited (shown descend (t.own i)) = [i] := by
  rw [shown_own, visit]
  split
  · rw [← List.singleton_append, visited_append, visited_append, visited_triviaEvents,
      visited_triviaEvents]
    rfl
  · rfl

section

variable (h : t.Grounded)

/-- The order in which the nodes from a node on are visited. -/
theorem visited_preorder (descend : Bool) (i : Fin t.size) :
    visited (shown descend (preorder h i)) =
      i :: (t.listed i).flatMap fun c ↦ visited (shown descend (preorder h c)) := by
  rw [shown_preorder, visited_append, visited_own, visited_flatMap]
  rfl

/-- **What is passed for a node is passed within it.** -/
theorem isWithin_of_mem_preorder (hlinked : t.WellLinked) {event : t.Event}
    (hevent : event ∈ shown descend (preorder h i)) : t.IsWithin i event.pair.1 := by
  induction i using h.wellFounded.induction with
  | _ i ih =>
    rw [shown_preorder, shown_own, List.mem_append, List.mem_flatMap] at hevent
    rcases hevent with hevent | ⟨c, hc, hevent⟩
    · rcases cases_of_mem_visit hevent with ⟨item, rfl⟩ | ⟨-, rfl⟩ | ⟨-, rfl⟩
      · exact isWithin_self i
      · exact isWithin_self i
      · exact isWithin_self i
    · exact (ih c hc hevent).of_child (((hlinked.listed i).2 c).1 hc)

/-- **The nodes within a node are visited, and no others.** -/
theorem LinksAgree.mem_visited_iff (hagree : t.LinksAgree) :
    j ∈ visited (shown descend (preorder h i)) ↔ t.IsWithin i j := by
  induction i using h.wellFounded.induction with
  | _ i ih =>
    rw [visited_preorder, List.mem_cons, List.mem_flatMap]
    constructor
    · rintro (rfl | ⟨c, hc, hmem⟩)
      · exact isWithin_self j
      · exact ((ih c hc).1 hmem).of_child (((hagree.listed i).2 c).1 hc)
    · intro hwithin
      rcases hwithin.cases with rfl | ⟨c, hc, hwithin⟩
      · exact .inl rfl
      · have hlisted := ((hagree.listed i).2 c).2 hc
        exact .inr ⟨c, hlisted, (ih c hlisted).2 hwithin⟩

/-- **No node is visited twice.** -/
theorem LinksAgree.nodup_visited (hagree : t.LinksAgree) (descend : Bool) (i : Fin t.size) :
    (visited (shown descend (preorder h i))).Nodup := by
  induction i using h.wellFounded.induction with
  | _ i ih =>
    obtain ⟨hnodup, hlisted⟩ := hagree.listed i
    rw [visited_preorder, List.nodup_cons, List.nodup_flatMap]
    refine ⟨?_, ih, ?_⟩
    · rintro hmem
      obtain ⟨c, hc, hmem⟩ := List.mem_flatMap.1 hmem
      exact not_isWithin_parent ((hlisted c).1 hc) ((hagree.mem_visited_iff h).1 hmem)
    · refine hnodup.imp_of_mem fun {c k} hc hk hne j hj hj' ↦ hne ?_
      exact ((hagree.mem_visited_iff h).1 hj).eq_of_parent ((hlisted c).1 hc)
        ((hlisted k).1 hk) ((hagree.mem_visited_iff h).1 hj')

/-- **A walk visits every node once.** -/
theorem LinksAgree.perm_visited (hagree : t.LinksAgree) (descend : Bool) :
    (visited (shown descend (preorder h t.root))).Perm (List.finRange t.size) := by
  refine (List.perm_ext_iff_of_nodup (hagree.nodup_visited h descend t.root)
    (List.nodup_finRange t.size)).2 fun j ↦ ?_
  rw [hagree.mem_visited_iff h]
  exact iff_of_true (isWithin_root j) (List.mem_finRange j)

theorem mem_visited_preorder_iff (hlinked : t.WellLinked) :
    j ∈ visited (shown descend (preorder h i)) ↔ t.IsWithin i j :=
  hlinked.linksAgree.mem_visited_iff h

theorem nodup_visited_preorder (hlinked : t.WellLinked) (descend : Bool) (i : Fin t.size) :
    (visited (shown descend (preorder h i))).Nodup :=
  hlinked.linksAgree.nodup_visited h descend i

/-- **What is passed within a node is passed together.** -/
theorem exists_around (hlinked : t.WellLinked) (descend : Bool) (i : Fin t.size) :
    ∃ before behind, shown descend (preorder h t.root) =
        before ++ shown descend (preorder h i) ++ behind ∧
      ∀ e ∈ before ++ behind, ¬ t.IsWithin i e.pair.1 := by
  induction i using parent_induction with
  | root => exact ⟨[], [], by simp, by simp⟩
  | child i p hp ih =>
    obtain ⟨before, behind, hsplit, hout⟩ := ih
    obtain ⟨hnodup, hlisted⟩ := hlinked.listed p
    obtain ⟨front, back, hchildren⟩ := List.append_of_mem ((hlisted i).2 hp)
    have hout' : ∀ e ∈ before ++ behind, ¬ t.IsWithin i e.pair.1 :=
      fun e he hwithin ↦ hout e he (hwithin.of_child hp)
    -- At the parent itself nothing is within the child.
    have hown : ∀ e ∈ shown descend (t.own p), ¬ t.IsWithin i e.pair.1 := by
      intro e he
      rw [shown_own] at he
      rcases cases_of_mem_visit he with ⟨item, rfl⟩ | ⟨-, rfl⟩ | ⟨-, rfl⟩
      · exact not_isWithin_parent hp
      · exact not_isWithin_parent hp
      · exact not_isWithin_parent hp
    have hsiblings : ∀ c ∈ front ++ back, ∀ e ∈ shown descend (preorder h c),
        ¬ t.IsWithin i e.pair.1 := by
      intro c hc e he hwithin
      rw [hchildren] at hnodup hlisted
      have hmem : c ∈ front ++ i :: back := by
        rw [List.mem_append, List.mem_cons]
        rcases List.mem_append.1 hc with hc | hc
        · exact .inl hc
        · exact .inr (.inr hc)
      obtain rfl := (isWithin_of_mem_preorder h hlinked he).eq_of_parent ((hlisted c).1 hmem) hp
        hwithin
      exact (List.nodup_middle.1 hnodup).notMem hc
    refine ⟨before ++ (shown descend (t.own p) ++
        front.flatMap fun c ↦ shown descend (preorder h c)),
      back.flatMap (fun c ↦ shown descend (preorder h c)) ++ behind, ?_, ?_⟩
    · rw [hsplit, shown_preorder, hchildren, List.flatMap_append, List.flatMap_cons]
      simp only [List.append_assoc]
    · intro e he
      simp only [List.mem_append, List.mem_flatMap] at he
      rcases he with (he | he | ⟨c, hc, he⟩) | ⟨c, hc, he⟩ | he
      · exact hout' e (List.mem_append_left _ he)
      · exact hown e he
      · exact hsiblings c (List.mem_append_left _ hc) e he
      · exact hsiblings c (List.mem_append_right _ hc) e he
      · exact hout' e (List.mem_append_right _ he)

end

/-! ### Where trees come from -/

/-- The links of laid out syntax agree. -/
theorem wellLinked_toTree (language : Option Language) (root : Annotated) :
    (root.toTree language).WellLinked where
  root _ := parent?_eq_none_iff
  parent _ _ hp := (root.toTree language).parent?_lt hp
  children i := by
    refine ⟨(root.toTree language).below i, ?_, ?_, fun c ↦ mem_below_iff⟩
    · rw [← refs_below, Annotated.refs, List.map_map]
      rfl
    · exact (List.pairwise_lt_finRange _).sublist List.filter_sublist
  token i htoken := by
    have hmem : (root.toTree language).node i ∈ Annotated.layoutAll none 0 [root] := by
      rw [← nodes_toTree language]
      exact Array.getElem_mem_toList i.isLt
    obtain ⟨parent, k, a, ha⟩ := Annotated.exists_head_of_mem_layoutAll hmem
    rw [ha] at htoken ⊢
    cases a with
    | branch => cases htoken
    | token => rfl
    | inserted => rfl

/-- Whether a tree is built from a draft after some requests, or read from concrete syntax. -/
inductive IsMade : Tree → Prop
  | built (language : Option Language) (requests : List Draft.Request) {t : Tree}
      (h : .ok (.tree t) ∈ ((Draft.empty language).serve requests).1) : IsMade t
  | read (g : Grammar) (source : ByteArray) (concrete : Concrete) {t : Tree}
      (h : g.tree? source concrete = .ok t) : IsMade t

theorem IsMade.wellLinked (h : t.IsMade) : t.WellLinked := by
  cases h with
  | built language requests h =>
    exact (Draft.tree_of_mem_serve (Draft.wellLinked_empty language) h).1
  | read g source concrete h =>
    obtain ⟨span, below, -, -, rfl⟩ := (Grammar.tree?_eq_ok_iff g source).1 h
    exact wellLinked_toTree _ _

/-- **A walk is a recursion over nodes and trivia.** On a tree whose children exist and in which no
node is below itself, a walk finishes and passes the pre-order from the root, with the events in
nested trivia or without them; the tokens are found in this order, and a visitor is told of nodes,
tokens and trivia in this order. Such trees are those that are built from a draft or read from
concrete syntax. In these a walk visits every node once and after its parent, and whatever is passed
at a node or below it is passed together. -/
theorem walk_in_preorder (t : Tree) :
    (∀ (h : t.Grounded) (descend : Bool),
      t.walk descend = ⟨shown descend (preorder h t.root), .finished⟩ ∧
        t.tokens = ⟨t.tokensOf (t.walk descend).events, .finished⟩ ∧
        ∀ (σ : Type) (v : t.Visitor σ) (s : σ),
          v.walk descend s = ((t.walk descend).events.foldl v.fire s, .finished)) ∧
    (t.IsMade → t.Grounded ∧ ∀ descend : Bool,
      let events := (t.walk descend).events
      (visited events).Perm (List.finRange t.size) ∧
        (∀ i p, t.parent? i = some p → [p, i].Sublist (visited events)) ∧
        ∀ i, ∃ before inside behind, events = before ++ inside ++ behind ∧
          (∀ e ∈ inside, t.IsWithin i e.pair.1) ∧
          ∀ e ∈ before ++ behind, ¬ t.IsWithin i e.pair.1) := by
  constructor
  · intro h descend
    refine ⟨h.walk_eq descend, ?_, fun σ v s ↦ v.walk_eq h descend s⟩
    rw [tokens_eq t descend, h.walk_eq descend]
  · intro hmade
    have hlinked := hmade.wellLinked
    have h := hlinked.grounded
    refine ⟨h, fun descend ↦ ?_⟩
    simp only [h.walk_eq descend]
    refine ⟨?_, fun i p hp ↦ ?_, fun i ↦ ?_⟩
    · refine (List.perm_ext_iff_of_nodup (nodup_visited_preorder h hlinked descend t.root)
        (List.nodup_finRange t.size)).2 fun j ↦ ?_
      rw [mem_visited_preorder_iff h hlinked]
      exact iff_of_true (isWithin_root j) (List.mem_finRange j)
    · obtain ⟨before, behind, hsplit, -⟩ := exists_around h hlinked descend p
      have hchild : i ∈ (t.listed p).flatMap fun c ↦ visited (shown descend (preorder h c)) :=
        List.mem_flatMap.2 ⟨i, ((hlinked.listed p).2 i).2 hp,
          (mem_visited_preorder_iff h hlinked).2 (isWithin_self i)⟩
      rw [hsplit, visited_append, visited_append, visited_preorder, List.append_assoc,
        List.cons_append]
      exact (List.cons_sublist_cons.2 (List.singleton_sublist.2
        (List.mem_append_left _ hchild))).trans (List.sublist_append_right _ _)
    · obtain ⟨before, behind, hsplit, hout⟩ := exists_around h hlinked descend i
      exact ⟨before, _, behind, hsplit, fun e he ↦ isWithin_of_mem_preorder h hlinked he, hout⟩

/-! ### A small tree -/

/-- A type is added before a token behind it, and its own token after that one. The token behind it
has documentation in front. -/
def lateRequests : List Draft.Request := [
  .addNode "unit" none .space none none,
  .addNode "class" (some 0) .type none none,
  .addToken "x" (some 0) none none [⟨.multiLineDocComment, "/** a */", .onLine 1 0 8,
    [⟨.docCommentExterior, "/**", .onLine 1 0 3, []⟩]⟩] [],
  .addToken "y" (some 1) none none [] [⟨.multiLineComment, "/* b */", .onLine 0 1 8, []⟩],
  .build]

/-- The tree that is built. -/
def late : Tree where
  nodes := #[
    ⟨"unit", .space, none, #[1, 2], .emptyAt 0 0, none, none, [], []⟩,
    ⟨"class", .type, some 0, #[3], .emptyAt 0 0, none, none, [], []⟩,
    ⟨"x", .nothing, some 0, #[], .emptyAt 0 0, none, some "x",
      [⟨.multiLineDocComment, "/** a */", .onLine 1 0 8,
        [⟨.docCommentExterior, "/**", .onLine 1 0 3, []⟩]⟩], []⟩,
    ⟨"y", .nothing, some 1, #[], .emptyAt 0 0, none, some "y", [],
      [⟨.multiLineComment, "/* b */", .onLine 0 1 8, []⟩]⟩]
  language := none
  nonempty := by simp
  root_parent := rfl
  parent_before := by
    intro i h hpos
    rcases eq_of_lt_four hpos h with rfl | rfl | rfl
    · exact ⟨0, rfl, by decide⟩
    · exact ⟨0, rfl, by decide⟩
    · exact ⟨1, rfl, by decide⟩

theorem isMade_late : late.IsMade := by
  have hlate : Draft.build ⟨none, late.nodes⟩ = .ok late := Draft.build_eq late
  have hbuilt : (Draft.answer ⟨none, late.nodes⟩ .build).1 = .ok (.tree late) := by
    rw [Draft.answer, Draft.Request.steps_eq, Draft.InPlace.runOn_atOnce, Draft.Request.operation,
      hlate]
    rfl
  exact .built none lateRequests (List.mem_of_getElem? (i := 4) (congrArg some hbuilt))

/-- The type is passed with its token before the token behind it. What is nested in the documentation
is passed only if nested trivia is gone into. -/
theorem walk_in_preorder_late :
    let told (e : late.Event) := (e.pair.1.val, e.pair.2.map Trivia.text)
    late.IsMade ∧ (∃ h : late.Grounded,
      (shown true (preorder h late.root)).map told =
        [(0, none), (1, none), (3, none), (3, some "/* b */"), (2, some "/** a */"),
          (2, some "/**"), (2, none)] ∧
      (shown false (preorder h late.root)).map told =
        [(0, none), (1, none), (3, none), (3, some "/* b */"), (2, some "/** a */"), (2, none)] ∧
      late.tokens.tokens = late.tokensOf (late.walk true).events) ∧
      (visited (late.walk true).events).Perm (List.finRange late.size) := by
  obtain ⟨hall, hmade⟩ := walk_in_preorder late
  obtain ⟨h, horder⟩ := hmade isMade_late
  obtain ⟨hdeep, htokens, -⟩ := hall h true
  obtain ⟨hflat, -, -⟩ := hall h false
  have hevents : (late.walk true).events = shown true (preorder h late.root) := by rw [hdeep]
  have houter : (late.walk false).events = shown false (preorder h late.root) := by rw [hflat]
  refine ⟨isMade_late, ⟨h, ?_, ?_, by rw [htokens]⟩, (horder true).1⟩
  · rw [← hevents]
    decide +kernel
  · rw [← houter]
    decide +kernel

end Tree

end CommentScope
