import CommentScope.Tree.Walk
import Mathlib.Data.Fintype.Card

/-!
# Walks in pre-order

`Tree.Passes` says what is passed on the way through some child references: for each of them its
node, then what is below it, then what is behind it, up to the first reference that names no node.
It knows of no stack and of no bound on the depth, and nothing is passed in this way if the way goes
round in a circle.

A walk of a tree is this way (`Tree.walkRounds_eq_iff`), whatever the child lists are. It is sound
since its stack is worked off from the top. It is complete since the levels that are allowed are
enough: the way below a node does not pass this node again, because there is one way at most
(`Passes.unique`) and it would have to hold itself (`Passes.not_visits_below`). So all nodes of a
chain are different.
-/

namespace CommentScope

namespace Tree

/-- What is passed on the way through child references, and how it ends. -/
inductive Passes (t : Tree) (descend : Bool) : List Int → List t.Event → Walk.Ending → Prop
  | nil : Passes t descend [] [] .finished
  | missing {ref : Int} {refs : List Int} (h : t.resolve? ref = none) :
      Passes t descend (ref :: refs) [] .brokenLink
  | broken {ref : Int} {refs : List Int} {i : Fin t.size} {below : List t.Event}
      (h : t.resolve? ref = some i)
      (hbelow : Passes t descend (t.node i).children.toList below .brokenLink) :
      Passes t descend (ref :: refs) (t.visit descend i ++ below) .brokenLink
  | cons {ref : Int} {refs : List Int} {i : Fin t.size} {below behind : List t.Event}
      {ending : Walk.Ending} (h : t.resolve? ref = some i)
      (hbelow : Passes t descend (t.node i).children.toList below .finished)
      (hbehind : Passes t descend refs behind ending) :
      Passes t descend (ref :: refs) (t.visit descend i ++ (below ++ behind)) ending

variable {t : Tree} {descend : Bool} {refs more : List Int} {events events' : List t.Event}
  {ending ending' : Walk.Ending} {i : Fin t.size}

namespace Passes

theorem ending_ne_endless (h : t.Passes descend refs events ending) : ending ≠ .endless := by
  induction h with
  | nil => decide
  | missing => decide
  | broken => decide
  | cons _ _ _ _ ih => exact ih

/-- **There is one way at most.** -/
theorem unique (h : t.Passes descend refs events ending)
    (h' : t.Passes descend refs events' ending') : events = events' ∧ ending = ending' := by
  induction h generalizing events' ending' with
  | nil =>
    cases h'
    exact ⟨rfl, rfl⟩
  | missing h =>
    cases h' with
    | missing => exact ⟨rfl, rfl⟩
    | broken h' => cases h.symm.trans h'
    | cons h' => cases h.symm.trans h'
  | broken h _ ih =>
    cases h' with
    | missing h' => cases h.symm.trans h'
    | broken h' hbelow' =>
      cases h.symm.trans h'
      exact ⟨by rw [(ih hbelow').1], rfl⟩
    | cons h' hbelow' =>
      cases h.symm.trans h'
      cases (ih hbelow').2
  | cons h _ _ ih ihb =>
    cases h' with
    | missing h' => cases h.symm.trans h'
    | broken h' hbelow' =>
      cases h.symm.trans h'
      cases (ih hbelow').2
    | cons h' hbelow' hbehind' =>
      cases h.symm.trans h'
      obtain ⟨rfl, -⟩ := ih hbelow'
      obtain ⟨rfl, hending⟩ := ihb hbehind'
      exact ⟨rfl, hending⟩

/-- The way through two lists goes through the first, and if it finishes there, through the
second. -/
theorem of_append (h : t.Passes descend (refs ++ more) events ending) :
    (t.Passes descend refs events .brokenLink ∧ ending = .brokenLink) ∨
      ∃ front back, events = front ++ back ∧ t.Passes descend refs front .finished ∧
        t.Passes descend more back ending := by
  induction refs generalizing events ending with
  | nil => exact .inr ⟨[], events, rfl, .nil, h⟩
  | cons ref refs ih =>
    rw [List.cons_append] at h
    cases h with
    | missing h => exact .inl ⟨.missing h, rfl⟩
    | broken h hbelow => exact .inl ⟨.broken h hbelow, rfl⟩
    | cons h hbelow hbehind =>
      rcases ih hbehind with ⟨hbroken, rfl⟩ | ⟨front, back, rfl, hfront, hback⟩
      · exact .inl ⟨.cons h hbelow hbroken, rfl⟩
      · refine .inr ⟨_, back, ?_, .cons h hbelow hfront, hback⟩
        rw [List.append_assoc, List.append_assoc]

end Passes

/-! ### No node is below itself -/

/-- Whether events tell that a node was visited. -/
def Visits (events : List t.Event) (i : Fin t.size) : Prop := .node i ∈ events ∨ .token i ∈ events

theorem visits_append {xs ys : List t.Event} :
    Visits (xs ++ ys) i ↔ Visits xs i ∨ Visits ys i := by
  rw [Visits, Visits, Visits, List.mem_append, List.mem_append]
  tauto

/-- The events of a node tell that this node was visited, and no other. -/
theorem visits_visit_iff {j : Fin t.size} : Visits (t.visit descend i) j ↔ i = j := by
  have htrivia : ∀ ts : List Trivia, ¬ Visits (ts.flatMap (t.triviaEvents descend i)) j := by
    intro ts hvisits
    have hnone : ∀ e ∈ ts.flatMap (t.triviaEvents descend i), ∃ item, e = .trivia i item := by
      intro e he
      obtain ⟨item, -, he⟩ := List.mem_flatMap.1 he
      rw [triviaEvents] at he
      split at he
      · obtain ⟨inner, -, rfl⟩ := List.mem_map.1 he
        exact ⟨inner, rfl⟩
      · exact ⟨item, List.mem_singleton.1 he⟩
    rcases hvisits with h | h
    · obtain ⟨item, heq⟩ := hnone _ h
      cases heq
    · obtain ⟨item, heq⟩ := hnone _ h
      cases heq
  rw [visit]
  split
  · rw [← List.singleton_append, visits_append, visits_append]
    simp only [htrivia, false_or, or_false]
    simp [Visits, eq_comm]
  · simp [Visits, eq_comm]

theorem length_visit_pos (t : Tree) (descend : Bool) (i : Fin t.size) :
    0 < (t.visit descend i).length := by
  rw [visit]
  split
  · rw [List.length_append, List.length_cons]
    omega
  · exact Nat.one_pos

/-- The way below a node that is visited is part of the way, and shorter. -/
theorem Passes.exists_below (h : t.Passes descend refs events ending) (hi : Visits events i) :
    ∃ below ending', t.Passes descend (t.node i).children.toList below ending' ∧
      below.length < events.length := by
  induction h with
  | nil => simp [Visits] at hi
  | missing => simp [Visits] at hi
  | @broken ref refs j below h hbelow ih =>
    have hpos := t.length_visit_pos descend j
    rw [List.length_append]
    rcases visits_append.1 hi with hi | hi
    · obtain rfl := visits_visit_iff.1 hi
      exact ⟨below, _, hbelow, by omega⟩
    · obtain ⟨inner, e, hinner, hlt⟩ := ih hi
      exact ⟨inner, e, hinner, by omega⟩
  | @cons ref refs j below behind ending h hbelow hbehind ih ihb =>
    have hpos := t.length_visit_pos descend j
    rw [List.length_append, List.length_append]
    rcases visits_append.1 hi with hi | hi
    · obtain rfl := visits_visit_iff.1 hi
      exact ⟨below, _, hbelow, by omega⟩
    · rcases visits_append.1 hi with hi | hi
      · obtain ⟨inner, e, hinner, hlt⟩ := ih hi
        exact ⟨inner, e, hinner, by omega⟩
      · obtain ⟨inner, e, hinner, hlt⟩ := ihb hi
        exact ⟨inner, e, hinner, by omega⟩

/-- **The way below a node does not pass the node again.** -/
theorem Passes.not_visits_below
    (h : t.Passes descend (t.node i).children.toList events ending) : ¬ Visits events i := by
  intro hi
  obtain ⟨below, ending', hbelow, hlt⟩ := h.exists_below hi
  rw [(hbelow.unique h).1] at hlt
  exact Nat.lt_irrefl _ hlt

/-! ### The stack works it off -/

/-- The nodes that the way below a node does not visit can be joined by this node. -/
theorem Passes.not_visits_insert
    (h : t.Passes descend (t.node i).children.toList events ending) {apart : Finset (Fin t.size)}
    (hapart : ∀ j ∈ apart, ¬ Visits events j) : ∀ j ∈ insert i apart, ¬ Visits events j := by
  intro j hj
  rcases Finset.mem_insert.1 hj with rfl | hj
  · exact h.not_visits_below
  · exact hapart j hj

/-- As long as there is a node that is not kept apart, there is a level left for it. -/
theorem exists_level {apart : Finset (Fin t.size)} (hi : i ∉ apart) {depth : Nat}
    (hdepth : t.size ≤ depth + apart.card) :
    ∃ d, depth = d + 1 ∧ t.size ≤ d + (insert i apart).card := by
  have hcard := Finset.card_insert_of_notMem hi
  have hle := card_finset_fin_le (insert i apart)
  exact ⟨depth - 1, by omega, by omega⟩

/-- **The levels are enough.** Some nodes are kept apart that the way does not visit; a stack that
allows as many levels as there are other nodes works the way off. -/
theorem Passes.runStack_eq (h : t.Passes descend refs events ending) {apart : Finset (Fin t.size)}
    (hapart : ∀ i ∈ apart, ¬ Visits events i) {depth : Nat} (hdepth : t.size ≤ depth + apart.card)
    (seen : Array t.Event) (stack : List (Nat × Int)) :
    t.runStack descend seen (refs.map (depth, ·) ++ stack) =
      if ending = .finished then t.runStack descend (seen ++ events.toArray) stack
      else ⟨(seen ++ events.toArray).toList, ending⟩ := by
  -- On the way down the node just visited is kept apart as well, for one level less.
  induction h generalizing apart depth seen stack with
  | nil => simp
  | missing h =>
    rw [List.map_cons, List.cons_append, runStack_missing h]
    simp
  | @broken ref refs i below h hbelow ih =>
    simp only [visits_append, visits_visit_iff, not_or] at hapart
    obtain ⟨depth, rfl, hlevels⟩ := exists_level (fun hi ↦ (hapart i hi).1 rfl) hdepth
    have hinner := hbelow.not_visits_insert fun j hj ↦ (hapart j hj).2
    rw [List.map_cons, List.cons_append, runStack_cons h, ih hinner hlevels]
    simp
  | @cons ref refs i below behind ending h hbelow hbehind ih ihb =>
    simp only [visits_append, visits_visit_iff, not_or] at hapart
    obtain ⟨depth, rfl, hlevels⟩ := exists_level (fun hi ↦ (hapart i hi).1 rfl) hdepth
    have hinner := hbelow.not_visits_insert fun j hj ↦ (hapart j hj).2.1
    rw [List.map_cons, List.cons_append, runStack_cons h, ih hinner hlevels, if_pos rfl,
      ihb (fun j hj ↦ (hapart j hj).2.2) hdepth]
    simp

/-- What a stack passes is the way through its references, unless it runs out of levels. -/
theorem passes_of_runStack (seen : Array t.Event) (stack : List (Nat × Int))
    (h : (t.runStack descend seen stack).ending ≠ .endless) :
    ∃ events, (t.runStack descend seen stack).events = seen.toList ++ events ∧
      t.Passes descend (stack.map Prod.snd) events (t.runStack descend seen stack).ending := by
  fun_induction runStack t descend seen stack with
  | case1 seen => exact ⟨[], by simp, .nil⟩
  | case2 seen depth ref stack hnone => exact ⟨[], by simp, .missing hnone⟩
  | case3 seen ref stack i hi => exact absurd rfl h
  | case4 seen ref stack i depth hi ih =>
    obtain ⟨events, hevents, hpasses⟩ := ih h
    rw [List.map_append, List.map_map] at hpasses
    have hrefs : (t.node i).children.toList.map (Prod.snd ∘ (depth, ·)) =
        (t.node i).children.toList := List.map_id _
    rw [hrefs] at hpasses
    refine ⟨t.visit descend i ++ events, by rw [hevents]; simp, ?_⟩
    rcases hpasses.of_append with ⟨hbroken, hending⟩ | ⟨front, back, rfl, hfront, hback⟩
    · rw [hending]
      exact .broken hi hbroken
    · exact .cons hi hfront hback

/-- **A walk is the way in pre-order**, as soon as one round is allowed. -/
theorem walkRounds_eq_iff {rounds : Nat} (hr : 0 < rounds) :
    t.walkRounds descend rounds = ⟨events, ending⟩ ∧ ending ≠ .endless ↔
      t.Passes descend [0] events ending := by
  constructor
  · rintro ⟨hwalk, hending⟩
    rw [walkRounds] at hwalk
    obtain ⟨events', hevents, hpasses⟩ :=
      passes_of_runStack #[] [(rounds * t.size, 0)] (by rw [hwalk]; exact hending)
    rw [hwalk] at hevents hpasses
    obtain rfl : events = events' := by simpa using hevents
    exact hpasses
  · intro h
    have hapart : ∀ i ∈ (∅ : Finset (Fin t.size)), ¬ Visits events i := by simp
    have hdepth : t.size ≤ rounds * t.size + (∅ : Finset (Fin t.size)).card := by
      rw [Finset.card_empty]
      exact Nat.le_mul_of_pos_left _ hr
    have hrun := h.runStack_eq hapart hdepth #[] []
    refine ⟨?_, h.ending_ne_endless⟩
    rw [walkRounds]
    refine hrun.trans ?_
    split
    · rename_i hfinished
      rw [hfinished, runStack]
      simp
    · simp

end Tree

end CommentScope
