import CommentScope.Finding
import CommentScope.Proofs.RecursiveWalk
import CommentScope.Proofs.Scopes

/-!
# What the links of a tree have to do with its walks

Rows form a tree if each stands at the position that it claims and has an earlier row as its parent.
That is all that is looked at: the chain of parents ends, but the child links are taken as they are. A
node may be listed by no one, or by itself, and then a walk misses it or does not end
(`Tree.ofRows_loose`).

If the child links agree with the parents, a walk ends and visits every node once, and so do the
search for tokens and the search for comments (`Tree.agreeing_visited_once`). What is passed at a node
depends on this node alone (`Tree.shown_eq_flatMap`), so it is enough to know in which order the nodes
are visited. The links of a tree that is built from a draft or read from concrete syntax agree.
-/

namespace CommentScope.Tree

variable {t : Tree} {accepts : Matcher}

/-- **What is passed at a node depends on this node alone.** -/
theorem shown_eq_flatMap (h : t.Grounded) (descend : Bool) (i : Fin t.size) :
    shown descend (preorder h i) =
      (visited (shown descend (preorder h i))).flatMap (t.visit descend) := by
  induction i using h.wellFounded.induction with
  | _ i ih =>
    rw [visited_preorder, List.flatMap_cons, List.flatMap_assoc, shown_preorder, shown_own]
    exact congrArg _ (List.flatMap_congr fun c hc ↦ ih c hc)

theorem findingsOf_flatMap (is : List (Fin t.size)) :
    t.findingsOf accepts (is.flatMap (t.visit true)) =
      is.flatMap fun i ↦ t.findingsOf accepts (t.visit true i) := by
  induction is with
  | nil => rfl
  | cons i is ih => rw [List.flatMap_cons, findingsOf_append, ih, List.flatMap_cons]

/-- A walk of a tree whose links agree passes what there is to pass at each node, for one node after
the other in some order, and ends. -/
theorem LinksAgree.exists_walk_eq (h : t.LinksAgree) (descend : Bool) :
    ∃ order : List (Fin t.size), order.Perm (List.finRange t.size) ∧
      visited (t.walk descend).events = order ∧
      t.walk descend = ⟨order.flatMap (t.visit descend), .finished⟩ := by
  have hwalk := h.grounded.walk_eq descend
  refine ⟨_, h.perm_visited h.grounded descend, ?_, ?_⟩
  · rw [hwalk]
  · rw [hwalk, ← shown_eq_flatMap]

/-- **A tree whose links agree is walked to the end, and every node is visited once.** A walk of it
finishes and visits every node once; the search for tokens finishes and finds every token once; and
the search for comments succeeds and finds what is wanted at each node, once. The links of a tree
that is built from a draft, whatever was asked of it, or read from concrete syntax agree. -/
theorem agreeing_visited_once (t : Tree) :
    (t.LinksAgree →
      (∀ descend, (t.walk descend).ending = .finished ∧
        (visited (t.walk descend).events).Perm (List.finRange t.size)) ∧
      (t.tokens.ending = .finished ∧
        t.tokens.tokens.Perm ((List.finRange t.size).filter fun i ↦ (t.node i).isToken)) ∧
      ∀ accepts : Matcher, ∃ found, t.findings? accepts = .ok found ∧
        found.Perm ((List.finRange t.size).flatMap fun i ↦
          t.findingsOf accepts (t.visit true i))) ∧
    (t.IsMade → t.LinksAgree) := by
  refine ⟨fun hagree ↦ ⟨fun descend ↦ ?_, ?_, fun accepts ↦ ?_⟩, fun hmade ↦
    hmade.wellLinked.linksAgree⟩
  · obtain ⟨order, hperm, hvisited, hwalk⟩ := hagree.exists_walk_eq descend
    exact ⟨by rw [hwalk], hvisited ▸ hperm⟩
  · obtain ⟨order, hperm, -, hwalk⟩ := hagree.exists_walk_eq true
    rw [tokens_eq t true, hwalk, tokensOf_flatMap]
    exact ⟨rfl, hperm.filter _⟩
  · obtain ⟨order, hperm, -, hwalk⟩ := hagree.exists_walk_eq true
    refine ⟨t.findingsOf accepts (order.flatMap (t.visit true)), ?_, ?_⟩
    · simp only [findings?, hwalk]
    · rw [findingsOf_flatMap]
      exact hperm.flatMap_right _

/-- A root that lists its children from the last to the first. The first of them is a token with a
comment, and it has a child of its own. -/
def backward : Tree where
  nodes := #[
    ⟨"unit", .space, none, #[2, 1], .emptyAt 0 0, none, none, [], []⟩,
    ⟨"x", .nothing, some 0, #[3], .emptyAt 0 0, none, some "x",
      [⟨.singleLineComment, "// x", .onLine 0 0 4, []⟩], []⟩,
    ⟨"class", .type, some 0, #[], .emptyAt 0 0, none, none, [], []⟩,
    ⟨"y", .nothing, some 1, #[], .emptyAt 0 0, none, some "y", [], []⟩]
  language := none
  nonempty := by simp
  root_parent := rfl
  parent_before := by
    intro i h hpos
    rcases eq_of_lt_four hpos h with rfl | rfl | rfl
    · exact ⟨0, rfl, by decide⟩
    · exact ⟨0, rfl, by decide⟩
    · exact ⟨1, rfl, by decide⟩

/-- The links of the small tree agree, although its children are neither in the order of the arena
nor below interior nodes only. All its nodes are visited, and its comment is found. -/
theorem agreeing_visited_once_backward :
    backward.LinksAgree ∧ (backward.walk true).ending = .finished ∧
      (visited (backward.walk true).events).Perm (List.finRange backward.size) ∧
      backward.tokens.tokens.Perm [⟨1, by decide⟩, ⟨3, by decide⟩] ∧
      ∃ found, backward.findings? (fun _ ↦ true) = .ok found ∧
        found.Perm [⟨"// x", 0, none, none, some 0⟩] := by
  have hagree : backward.LinksAgree := by
    refine ⟨?_, ?_⟩
    · decide +kernel
    · decide +kernel
  obtain ⟨hwalk, ⟨-, htokens⟩, hfound⟩ := (agreeing_visited_once backward).1 hagree
  obtain ⟨found, hok, hperm⟩ := hfound fun _ ↦ true
  have hwanted : ((List.finRange backward.size).flatMap fun i ↦
      backward.findingsOf (fun _ ↦ true) (backward.visit true i)) =
        [⟨"// x", 0, none, none, some 0⟩] := by
    decide +kernel
  exact ⟨hagree, (hwalk true).1, (hwalk true).2, htokens, found, hok, hwanted ▸ hperm⟩

/-! ### Links that do not agree -/

/-- A root above a token, whose children are given. -/
def loose (children : Array Int) : Tree where
  nodes := #[
    ⟨"unit", .nothing, none, children, .emptyAt 0 0, none, none, [], []⟩,
    ⟨"x", .nothing, some 0, #[], .emptyAt 0 0, none, some "x", [], []⟩]
  language := none
  nonempty := by simp
  root_parent := rfl
  parent_before := by
    intro i h hpos
    obtain rfl : i = 1 := Nat.le_antisymm (Nat.le_of_lt_succ h) hpos
    exact ⟨0, rfl, by decide⟩

/-- The rows of a root above a token. -/
def looseRows (children : Array Int) : Array Row := Draft.rows ⟨none, (loose children).nodes⟩

/-- **Rows are accepted although their links do not agree.** A token that its parent does not list is
not visited, and the search for tokens misses it; one that is listed twice is visited twice; a walk
stops at a child that does not exist; and it does not end if the root lists itself. -/
theorem ofRows_loose :
    (ofRows none (looseRows #[]) = .ok (loose #[]) ∧ ¬ (loose #[]).LinksAgree ∧
      ¬ (visited ((loose #[]).walk true).events).Perm (List.finRange (loose #[]).size) ∧
      (loose #[]).tokens.tokens = []) ∧
    (ofRows none (looseRows #[1, 1]) = .ok (loose #[1, 1]) ∧
      (visited ((loose #[1, 1]).walk true).events).map Fin.val = [0, 1, 1]) ∧
    (ofRows none (looseRows #[2]) = .ok (loose #[2]) ∧
      ((loose #[2]).walk true).ending = .brokenLink) ∧
    (ofRows none (looseRows #[0]) = .ok (loose #[0]) ∧
      ((loose #[0]).walk true).ending = .endless) := by
  have hmissed : visited ((loose #[]).walk true).events = [⟨0, by decide⟩] := by decide +kernel
  have hnot : ¬ (visited ((loose #[]).walk true).events).Perm (List.finRange (loose #[]).size) := by
    intro hperm
    rw [hmissed] at hperm
    exact absurd hperm.length_eq (by decide)
  refine ⟨⟨ofRows_rows _, fun hagree ↦ ?_, hnot, by decide +kernel⟩,
    ⟨ofRows_rows _, by decide +kernel⟩, ⟨ofRows_rows _, by decide +kernel⟩,
    ofRows_rows _, by decide +kernel⟩
  exact absurd (hagree.once ⟨1, by decide⟩ ⟨0, by decide⟩ rfl) (by decide)

end CommentScope.Tree
