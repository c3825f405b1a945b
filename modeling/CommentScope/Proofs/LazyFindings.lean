import CommentScope.Finding
import CommentScope.Proofs.Preorder

/-!
# Findings at once and one after the other

Collecting the findings of a tree and taking them from the start agree, on every tree: on trees
with shared, circular or dangling children as well as on trees of syntax (`Tree.scans_agree`).

Both are read off the way in pre-order. If it finishes, the findings are those of the comments on
it, and taking from the start takes from them. If it ends at a child that does not exist, nothing is
collected, but the findings before that child can still be taken.
-/

namespace CommentScope

namespace Tree

variable {t : Tree} {accepts : Matcher} {events : List t.Event} {ending : Walk.Ending}

/-- What is collected on a way in pre-order. -/
theorem Passes.findings?_eq (h : t.Passes true [0] events ending) (accepts : Matcher) :
    t.findings? accepts =
      if ending = .finished then .ok (t.findingsOf accepts events) else .error .noSuchNode := by
  obtain ⟨hwalk, hending⟩ := (walkRounds_eq_iff Nat.one_pos).2 h
  rw [findings?, walk, hwalk]
  cases ending with
  | finished => rfl
  | brokenLink => rfl
  | endless => exact absurd rfl hending

/-- What is taken from the start on a way in pre-order. -/
theorem Passes.firstFindings?_eq (h : t.Passes true [0] events ending) (accepts : Matcher)
    (n : Nat) : t.firstFindings? accepts n =
      if n ≤ (t.findingsOf accepts events).length ∨ ending = .finished then
        .ok ((t.findingsOf accepts events).take n)
      else .error .noSuchNode := by
  rw [firstFindings?, ((walkRounds_eq_iff n.succ_pos).2 h).1]

/-- What was collected is on a way in pre-order that finishes. -/
theorem exists_passes_of_findings? {found : List Finding} (h : t.findings? accepts = .ok found) :
    ∃ events, t.Passes true [0] events .finished ∧ found = t.findingsOf accepts events := by
  rw [findings?] at h
  cases hwalk : t.walk true with
  | mk events ending =>
    rw [hwalk] at h
    cases ending with
    | finished =>
      refine ⟨events, (walkRounds_eq_iff Nat.one_pos).1 ⟨hwalk, by decide⟩, ?_⟩
      exact (Except.ok.inj h).symm
    | brokenLink => cases h
    | endless => cases h

/-- If every comment is wanted, every comment is found. -/
theorem findingsOf_true (events : List t.Event) :
    t.findingsOf (fun _ ↦ true) events =
      (t.commentsOf events).map fun c ↦ t.findingAt c.1 c.2 := by
  rw [findingsOf, List.filter_true]

/-- To look for wanted comments is to look for all and to keep the wanted ones. -/
theorem findingsOf_eq_filter (accepts : Matcher) (events : List t.Event) :
    t.findingsOf accepts events =
      (t.findingsOf (fun _ ↦ true) events).filter fun f ↦ accepts f.content := by
  rw [findingsOf_true, List.filter_map]
  rfl

/-- **Collecting, filtering and taking from the start agree.** On any tree, whatever its child
lists are:

* if all comments can be collected, there is one for each comment that is passed in pre-order,
  nested ones included, and the wanted ones among them are what is collected as wanted;
* what can be collected can be taken from the start, up to any number;
* if the way in pre-order ends at a child that does not exist, nothing can be collected, and what
  can be taken from the start are the wanted comments passed before that child. -/
theorem scans_agree (t : Tree) (accepts : Matcher) :
    (∀ all, t.findings? (fun _ ↦ true) = .ok all →
      t.findings? accepts = .ok (all.filter fun f ↦ accepts f.content) ∧
        ∃ events, t.Passes true [0] events .finished ∧
          all = (t.commentsOf events).map fun c ↦ t.findingAt c.1 c.2) ∧
    (∀ found, t.findings? accepts = .ok found →
      ∀ n, t.firstFindings? accepts n = .ok (found.take n)) ∧
    ∀ events, t.Passes true [0] events .brokenLink →
      t.findings? accepts = .error .noSuchNode ∧
        ∀ n, t.firstFindings? accepts n =
          if n ≤ (t.findingsOf accepts events).length then
            .ok ((t.findingsOf accepts events).take n)
          else .error .noSuchNode := by
  refine ⟨?filtered, ?taken, ?broken⟩
  case filtered =>
    intro all hall
    obtain ⟨events, hpasses, rfl⟩ := exists_passes_of_findings? hall
    refine ⟨?_, events, hpasses, findingsOf_true events⟩
    rw [hpasses.findings?_eq, if_pos rfl, findingsOf_eq_filter]
  case taken =>
    intro found hfound n
    obtain ⟨events, hpasses, rfl⟩ := exists_passes_of_findings? hfound
    rw [hpasses.firstFindings?_eq, if_pos (.inr rfl)]
  case broken =>
    intro events hpasses
    refine ⟨?_, fun n ↦ ?_⟩
    · rw [hpasses.findings?_eq, if_neg (by decide)]
    · rw [hpasses.firstFindings?_eq]
      simp

/-! ### A tree with tangled links -/

/-- The root names its first token, its last token counted from the end, and a third child. -/
def tangled (last : Int) : Tree where
  nodes := #[
    ⟨"unit", .space, none, #[1, -1, last], .emptyAt 0 0, none, none, [], []⟩,
    ⟨"x", .nothing, some 0, #[], .emptyAt 1 0, none, some "x",
      [⟨.multiLineDocComment, "/** a */", .onLine 0 0 8,
        [⟨.docCommentExterior, "/**", .onLine 0 0 3, []⟩]⟩], []⟩,
    ⟨"y", .nothing, some 0, #[], .emptyAt 2 0, none, some "y", [],
      [⟨.multiLineComment, "/* b */", .onLine 2 1 7, []⟩]⟩]
  language := none
  nonempty := by simp
  root_parent := rfl
  parent_before := by
    intro i h hpos
    have hi : i = 1 ∨ i = 2 := by
      have : i < 3 := h
      omega
    rcases hi with rfl | rfl
    · exact ⟨0, rfl, by decide⟩
    · exact ⟨0, rfl, by decide⟩

/-- The way through the small tree if its root has no third child, and what is wanted on it. -/
theorem passes_tangled : ∃ events, (tangled 3).Passes true [0] events .brokenLink ∧
    (tangled 3).findingsOf (· != "/**") events =
      [⟨"/** a */", 0, none, none, some 0⟩, ⟨"/* b */", 2, none, none, some 0⟩] :=
  ⟨_, .broken (i := ⟨0, by decide⟩) rfl
    (.cons (i := ⟨1, by decide⟩) rfl .nil (.cons (i := ⟨2, by decide⟩) rfl .nil (.missing rfl))),
    by decide +kernel⟩

/-- If the third child of the small tree is its first token, this token is passed twice. If there is
no third child, the comments of two tokens can be taken before that is noticed. -/
theorem scans_agree_tangled :
    (tangled 1).findings? (fun _ ↦ true) =
      .ok [⟨"/** a */", 0, none, none, some 0⟩, ⟨"/**", 0, none, none, some 0⟩,
        ⟨"/* b */", 2, none, none, some 0⟩, ⟨"/** a */", 0, none, none, some 0⟩,
        ⟨"/**", 0, none, none, some 0⟩] ∧
    (tangled 1).findings? (· != "/**") =
      .ok [⟨"/** a */", 0, none, none, some 0⟩, ⟨"/* b */", 2, none, none, some 0⟩,
        ⟨"/** a */", 0, none, none, some 0⟩] ∧
    (tangled 1).firstFindings? (· != "/**") 1 = .ok [⟨"/** a */", 0, none, none, some 0⟩] ∧
    (∃ events, (tangled 3).Passes true [0] events .brokenLink) ∧
    (tangled 3).findings? (· != "/**") = .error .noSuchNode ∧
    (tangled 3).firstFindings? (· != "/**") 2 =
      .ok [⟨"/** a */", 0, none, none, some 0⟩, ⟨"/* b */", 2, none, none, some 0⟩] ∧
    (tangled 3).firstFindings? (· != "/**") 3 = .error .noSuchNode := by
  obtain ⟨hfiltered, htaken, -⟩ := scans_agree (tangled 1) (· != "/**")
  obtain ⟨-, -, hbroken⟩ := scans_agree (tangled 3) (· != "/**")
  have hall : (tangled 1).findings? (fun _ ↦ true) =
      .ok [⟨"/** a */", 0, none, none, some 0⟩, ⟨"/**", 0, none, none, some 0⟩,
        ⟨"/* b */", 2, none, none, some 0⟩, ⟨"/** a */", 0, none, none, some 0⟩,
        ⟨"/**", 0, none, none, some 0⟩] := by
    decide +kernel
  have hfound := (hfiltered _ hall).1
  obtain ⟨events, hpasses, hwanted⟩ := passes_tangled
  obtain ⟨herror, hfirst⟩ := hbroken events hpasses
  rw [hwanted] at hfirst
  exact ⟨hall, hfound, htaken _ hfound 1, ⟨events, hpasses⟩, herror, hfirst 2, hfirst 3⟩

end Tree

end CommentScope
