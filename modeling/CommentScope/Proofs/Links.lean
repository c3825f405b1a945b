import CommentScope.Proofs.WalkOrder

/-!
# Links up and links down

In an arena of laid out syntax the child lists say what the parent links say: the children of a node
are the nodes whose parent it is, in the order of the arena (`Tree.children?_toTree`). A node whose
parent lies inside some siblings lies there as well, so the nodes under a parent are looked for one
sibling after the other (`Annotated.placesUnder_layoutAll`).
-/

namespace CommentScope

namespace Annotated

/-- The positions, counted from `i`, of the nodes under a parent. -/
def placesUnder (p i : Nat) (ns : List Node) : List Nat :=
  ((ns.zipIdx i).filter fun x ↦ x.1.parent == some p).map Prod.snd

theorem placesUnder_append (p i : Nat) (ns ms : List Node) :
    placesUnder p i (ns ++ ms) = placesUnder p i ns ++ placesUnder p (i + ns.length) ms := by
  rw [placesUnder, List.zipIdx_append, List.filter_append, List.map_append]
  rfl

theorem placesUnder_eq_nil {p i : Nat} {ns : List Node} (h : ∀ n ∈ ns, n.parent ≠ some p) :
    placesUnder p i ns = [] := by
  rw [placesUnder, List.map_eq_nil_iff, List.filter_eq_nil_iff]
  rintro ⟨n, k⟩ hn
  have hne := h n (List.fst_mem_of_mem_zipIdx hn)
  simpa using hne

/-- **Every node is what some piece of syntax says of itself.** -/
theorem exists_head_of_mem_layoutAll {parent : Option Nat} {i : Nat} {as : List Annotated}
    {n : Node} (h : n ∈ layoutAll parent i as) : ∃ p k, ∃ a : Annotated, n = a.head p k := by
  induction as using forest_induction generalizing parent i with
  | nil => exact absurd h List.not_mem_nil
  | cons a as ihc ih =>
    rw [layoutAll, layout_eq_cons, List.cons_append, List.mem_cons, List.mem_append] at h
    rcases h with rfl | h | h
    · exact ⟨parent, i, a, rfl⟩
    · exact ihc h
    · exact ih h

/-- The parent of a node of some siblings is the parent of the siblings or one of their own nodes.
-/
theorem parent_of_mem_layoutAll {parent : Option Nat} {i : Nat} {as : List Annotated} {n : Node}
    (h : n ∈ layoutAll parent i as) :
    n.parent = parent ∨ ∃ q, n.parent = some q ∧ i ≤ q ∧ q < i + sizeAll as := by
  induction as using forest_induction generalizing parent i with
  | nil => exact absurd h List.not_mem_nil
  | cons a as ihc ih =>
    have hsize : sizeAll (a :: as) = sizeAll a.children + 1 + sizeAll as := by rw [sizeAll, size_eq]
    have ha := a.size_eq
    rw [layoutAll, layout_eq_cons, List.cons_append, List.mem_cons, List.mem_append] at h
    rcases h with rfl | h | h
    · exact .inl (parent_head parent i a)
    · rcases ihc h with hown | ⟨q, hq, hle, hlt⟩
      · exact .inr ⟨i, hown, Nat.le_refl i, by omega⟩
      · exact .inr ⟨q, hq, by omega, by omega⟩
    · rcases ih h with hown | ⟨q, hq, hle, hlt⟩
      · exact .inl hown
      · exact .inr ⟨q, hq, by omega, by omega⟩

/-- Nothing in some siblings is under a node that is neither their parent nor one of their own. -/
theorem placesUnder_outside {parent : Option Nat} {p i j : Nat} {as : List Annotated}
    (hp : parent ≠ some p) (hout : p < i ∨ i + sizeAll as ≤ p) :
    placesUnder p j (layoutAll parent i as) = [] := by
  refine placesUnder_eq_nil fun n hn heq ↦ ?_
  rcases parent_of_mem_layoutAll hn with hown | ⟨q, hq, hle, hlt⟩
  · exact hp (hown.symm.trans heq)
  · cases hq.symm.trans heq
    omega

/-- The nodes of the first sibling, of what is below it, and of the siblings behind it. -/
theorem placesUnder_cons (p : Nat) (parent : Option Nat) (i : Nat) (a : Annotated)
    (as : List Annotated) :
    placesUnder p i (layoutAll parent i (a :: as)) =
      (if parent = some p then [i] else []) ++
        placesUnder p (i + 1) (layoutAll (some i) (i + 1) a.children) ++
        placesUnder p (i + a.size) (layoutAll parent (i + a.size) as) := by
  have hhead : placesUnder p i [a.head parent i] = if parent = some p then [i] else [] := by
    rw [placesUnder, List.zipIdx_singleton, List.filter_singleton, parent_head]
    by_cases h : parent = some p
    · simp [h]
    · simp [h, beq_eq_false_iff_ne.2 h]
  rw [layoutAll, placesUnder_append, length_layout, layout_eq_cons, ← List.singleton_append,
    placesUnder_append, hhead]
  rfl

/-- The nodes directly under the parent of some siblings are the siblings. -/
theorem placesUnder_parent {p i : Nat} (hp : p < i) (as : List Annotated) :
    placesUnder p i (layoutAll (some p) i as) = starts i as := by
  induction as generalizing i with
  | nil => rfl
  | cons a as ih =>
    have hbelow : placesUnder p (i + 1) (layoutAll (some i) (i + 1) a.children) = [] :=
      placesUnder_outside (fun heq ↦ by have hi := Option.some.inj heq; omega) (.inl (by omega))
    rw [placesUnder_cons, if_pos rfl, hbelow, ih (by omega)]
    rfl

/-- **A node lists the nodes that are under it.** The node stands among siblings that come after
their parent; nodes under it are not looked for elsewhere. -/
theorem placesUnder_layoutAll {parent : Option Nat} {i k : Nat} {as : List Annotated} {n : Node}
    (hparent : ∀ q, parent = some q → q < i) (h : (layoutAll parent i as)[k]? = some n) :
    refs (placesUnder (i + k) i (layoutAll parent i as)) = n.children := by
  induction as using forest_induction generalizing parent i k with
  | nil => cases h
  | cons a as ihc ih =>
    have ha := a.size_eq
    have hne : parent ≠ some (i + k) := fun heq ↦ by
      have hlt := hparent _ heq
      omega
    rw [placesUnder_cons, if_neg hne, List.nil_append]
    rw [layoutAll, List.getElem?_append, length_layout] at h
    split at h
    · rename_i hk
      have hbehind : placesUnder (i + k) (i + a.size) (layoutAll parent (i + a.size) as) = [] :=
        placesUnder_outside hne (.inl (by omega))
      rw [hbehind, List.append_nil]
      rw [layout_eq_cons] at h
      rcases k with _ | k
      · cases h
        rw [Nat.add_zero, placesUnder_parent (Nat.lt_succ_self i), Tree.children_head]
      · have hown := ihc (fun q hq ↦ by cases hq; exact Nat.lt_succ_self i) h
        rwa [Nat.add_right_comm i 1 k] at hown
    · rename_i hk
      obtain ⟨k, rfl⟩ : ∃ m, k = a.size + m := Nat.exists_eq_add_of_le (by omega)
      rw [Nat.add_sub_cancel_left] at h
      have hbelow : placesUnder (i + (a.size + k)) (i + 1) (layoutAll (some i) (i + 1) a.children) =
          [] :=
        placesUnder_outside (fun heq ↦ by have hi := Option.some.inj heq; omega) (.inr (by omega))
      have hown := ih (fun q hq ↦ Nat.lt_add_right a.size (hparent q hq)) h
      rw [hbelow, List.nil_append, ← Nat.add_assoc]
      exact hown

end Annotated

namespace Tree

open Annotated

variable (t : Tree)

/-- The nodes whose parent is a given node, in the order of the arena. -/
def below (i : Fin t.size) : List (Fin t.size) :=
  (List.finRange t.size).filter fun j ↦ t.parent? j == some i

variable {t}

theorem mem_below_iff {i j : Fin t.size} : j ∈ t.below i ↔ t.parent? j = some i := by
  rw [below, List.mem_filter, beq_iff_eq]
  exact and_iff_right (List.mem_finRange j)

/-- The position of a node below another, and the position of the other. -/
theorem lt_of_mem_below {i j : Fin t.size} (h : j ∈ t.below i) : i < j :=
  t.parent?_lt (mem_below_iff.1 h)

theorem map_val_below (i : Fin t.size) :
    (t.below i).map Fin.val = placesUnder i 0 t.nodes.toList := by
  have hzip : t.nodes.toList.zipIdx 0 = (List.finRange t.size).map fun j ↦ (t.node j, j.val) := by
    refine List.ext_getElem (by simp) fun k h₁ h₂ ↦ ?_
    simp [node]
  have hparent : ∀ j, (t.parent? j == some i) = ((t.node j).parent == some i.val) := by
    intro j
    rw [← t.val_parent? j]
    cases t.parent? j with
    | none => rfl
    | some p => simp [Fin.ext_iff, beq_eq_decide]
  rw [placesUnder, hzip, List.filter_map, List.map_map, below]
  simp only [hparent]
  rfl

theorem mapM_resolve? (is : List (Fin t.size)) :
    (refs (is.map Fin.val)).toList.mapM t.resolve? = some is := by
  induction is with
  | nil => rfl
  | cons i is ih =>
    have hi : t.resolve? (Int.ofNat i.val) = some i := resolve?_natCast i.isLt
    rw [refs, List.map_cons, List.map_cons, List.mapM_cons, hi]
    show ((refs (is.map Fin.val)).toList.mapM t.resolve?).bind _ = _
    rw [ih]
    rfl

/-- The nodes below a node are those that it lists. -/
theorem refs_below (language : Option Language) (root : Annotated)
    (i : Fin (root.toTree language).size) :
    refs (((root.toTree language).below i).map Fin.val) =
      ((root.toTree language).node i).children := by
  have hget : (layoutAll none 0 [root])[i.val]? = some ((root.toTree language).node i) := by
    rw [← nodes_toTree language, Array.getElem?_toList]
    exact Array.getElem?_eq_getElem i.isLt
  have hplaces := placesUnder_layoutAll (fun q hq ↦ by cases hq) hget
  rwa [Nat.zero_add, ← nodes_toTree language, ← map_val_below] at hplaces

/-- **The children of a node are the nodes whose parent it is.** All of them exist, and they are
listed in the order of the arena. -/
theorem children?_toTree (language : Option Language) (root : Annotated)
    (i : Fin (root.toTree language).size) :
    (root.toTree language).children? i = some ((root.toTree language).below i) := by
  rw [children?, ← refs_below]
  exact mapM_resolve? _

/-! ### Lists in the order of the arena -/

/-- The last of some nodes, if they are in the order of the arena. -/
theorem getLast?_filter_finRange {n : Nat} {p : Fin n → Bool} {e : Fin n} (he : p e = true)
    (hlast : ∀ i, i ≤ e) : ((List.finRange n).filter p).getLast? = some e := by
  have hsorted : ((List.finRange n).filter p).Pairwise (· < ·) :=
    (List.pairwise_lt_finRange n).sublist List.filter_sublist
  have hmem : e ∈ (List.finRange n).filter p := List.mem_filter.2 ⟨List.mem_finRange e, he⟩
  obtain ⟨before, behind, hsplit⟩ := List.append_of_mem hmem
  rw [hsplit] at hsorted ⊢
  rcases behind with _ | ⟨i, behind⟩
  · exact List.getLast?_concat
  · have hlt := (List.pairwise_cons.1 (List.pairwise_append.1 hsorted).2.1).1 i List.mem_cons_self
    exact absurd (hlast i) (Fin.not_le.2 hlt)

theorem tokensOf_append (xs ys : List t.Event) :
    t.tokensOf (xs ++ ys) = t.tokensOf xs ++ t.tokensOf ys :=
  List.filterMap_append

theorem tokensOf_trivia (descend : Bool) (i : Fin t.size) (ts : List Trivia) :
    t.tokensOf (ts.flatMap (t.triviaEvents descend i)) = [] := by
  rw [tokensOf, List.filterMap_eq_nil_iff]
  intro event hevent
  obtain ⟨item, -, hevent⟩ := List.mem_flatMap.1 hevent
  rw [triviaEvents] at hevent
  split at hevent
  · obtain ⟨inner, -, rfl⟩ := List.mem_map.1 hevent
    rfl
  · rw [List.mem_singleton.1 hevent]

theorem tokensOf_visit (descend : Bool) (i : Fin t.size) :
    t.tokensOf (t.visit descend i) = if (t.node i).isToken then [i] else [] := by
  rw [visit]
  split
  · rw [← List.singleton_append, tokensOf_append, tokensOf_append, tokensOf_trivia, tokensOf_trivia]
    rfl
  · rfl

theorem tokensOf_flatMap (descend : Bool) (is : List (Fin t.size)) :
    t.tokensOf (is.flatMap (t.visit descend)) = is.filter fun i ↦ (t.node i).isToken := by
  induction is with
  | nil => rfl
  | cons i is ih =>
    rw [List.flatMap_cons, tokensOf_append, tokensOf_visit, ih, List.filter_cons]
    split <;> rfl

/-- **A walk passes every token once**, in the order of the arena. -/
theorem tokensOf_walk (language : Option Language) (root : Annotated) (descend : Bool) :
    let t := root.toTree language
    t.tokensOf (t.walk descend).events =
      (List.finRange t.size).filter fun i ↦ (t.node i).isToken := by
  intro t
  rw [walk, walkRounds_toTree language root descend Nat.one_pos]
  exact tokensOf_flatMap descend (List.finRange t.size)

end Tree

end CommentScope
