import CommentScope.Proofs.Arranged
import Mathlib.Data.List.Basic

/-!
# What comments belong to

A comment among siblings belongs to a token that is found by the nearest nodes before and behind it
which are no comments (`Container.host`). From this it follows what stands below an interior node
(`Container.slots`): the tokens of its leaves with their comments, its interior nodes, and tokens
that are inserted for comments.

Positions count all siblings, comments included. The comments between two neighbouring nodes form a
gap (`Container.IsGap`). They have the same nodes before and behind them, and all others have nearer
ones, so the comments of a token are found in the gaps on both sides of it (`IsGap.hosted_behind`,
`IsGap.hosted_before`), and the slots can be written down gap by gap (`IsGap.slotsFrom_leaf`,
`IsGap.slotsFrom_inner`, `IsGap.slotsFrom_root`, `IsGap.slotsFrom_end`).
-/

namespace CommentScope

/-- Where a comment goes: to the token of a leaf, which is known by the position of the leaf among
its siblings, to the end-of-file token, or to a token of its own. -/
inductive Host where
  | behind (leaf : Nat)
  | before (leaf : Nat)
  | atEnd
  | alone
  deriving DecidableEq

/-- What stands below an interior node: the token of a leaf at some position among the siblings,
another interior node, or a token that is inserted; tokens with the blocks that they carry. -/
inductive Slot where
  | leaf (place : Nat) (c : Concrete) (leading trailing : List Block)
  | inner (c : Concrete)
  | anchor (b : Block)
  | endOfFile (leading : List Block)

/-- Whether a token carries a block that goes to a given host. -/
def Slot.Carries (host : Host) (b : Block) : Slot → Prop
  | .leaf place _ leading trailing =>
    host = .behind place ∧ b ∈ trailing ∨ host = .before place ∧ b ∈ leading
  | .inner _ => False
  | .anchor own => host = .alone ∧ own = b
  | .endOfFile leading => host = .atEnd ∧ b ∈ leading

/-- An interior node of a concrete tree, with the siblings that it holds. -/
structure Container where
  node : Concrete
  isRoot : Bool
  siblings : List Arranged

/-- Whether a block starts on a given row, if one is given. -/
def Block.startsOn (row : Option Int) (b : Block) : Bool := row == some b.first.label.start.row

/-- The leaf that a piece of syntax is, if it is one. -/
def Arranged.leaf? : Arranged → Option Concrete
  | .leaf c => some c
  | .comment _ | .inner .. => none

namespace Container

variable (K : Container)

/-! ### The nearest nodes -/

/-- Whether there is a node that is no comment at a position. -/
def hasNode (k : Nat) : Bool :=
  match K.siblings[k]? with
  | some (.leaf _) | some (.inner ..) => true
  | some (.comment _) | none => false

/-- The leaf at a position, if there is one. -/
def leaf? (k : Nat) : Option Concrete := K.siblings[k]?.bind Arranged.leaf?

/-- The position of the nearest node before a position that is no comment. -/
def prev? : Nat → Option Nat
  | 0 => none
  | k + 1 => if K.hasNode k then some k else prev? k

/-- The position of the nearest node behind a position that is no comment. -/
def next? (k : Nat) : Option Nat :=
  (List.range' (k + 1) (K.siblings.length - (k + 1))).find? K.hasNode

/-- The row on which the nearest node before a position ends, if this node is a leaf. -/
def rowBefore (k : Nat) : Option Int :=
  ((K.prev? k).bind K.leaf?).map fun c ↦ c.label.stop.row

/-- Where a block at a position goes that does not trail the leaf before it. -/
def ahead (k : Nat) : Host :=
  match K.next? k with
  | some n => if (K.leaf? n).isSome then .before n else .alone
  | none => if K.isRoot then .atEnd else .alone

/-- **Where a block at a position goes.** If it starts on the row on which the leaf before it ends,
it trails the token of this leaf. Otherwise, if the next node is a leaf, it leads the token of that
leaf; if there is no next node, and these are the children of the root, it leads the end-of-file
token; and otherwise it has a token of its own. -/
def host (k : Nat) (b : Block) : Host :=
  match K.prev? k with
  | some p => if K.rowBefore k = some b.first.label.start.row then .behind p else K.ahead k
  | none => K.ahead k

/-- A sibling that is a block with a given host. -/
def hostedAt (h : Host) : Arranged × Nat → Option Block
  | (.comment b, k) => if K.host k b = h then some b else none
  | _ => none

/-- The blocks with a given host, in their order. -/
def hosted (h : Host) : List Block := K.siblings.zipIdx.filterMap (K.hostedAt h)

/-- What is below the node for a sibling. -/
def slotAt : Arranged × Nat → Option Slot
  | (.leaf c, k) => some (.leaf k c (K.hosted (.before k)) (K.hosted (.behind k)))
  | (.inner c _, _) => some (.inner c)
  | (.comment b, k) => if K.host k b = .alone then some (.anchor b) else none

/-- What is below the root behind all siblings. -/
def ending : List Slot := if K.isRoot then [.endOfFile (K.hosted .atEnd)] else []

/-- What is below the node for the siblings from a position on. -/
def slotsFrom (n : Nat) : List Slot :=
  ((K.siblings.drop n).zipIdx n).filterMap K.slotAt ++ K.ending

/-- What is below the node, in order. -/
def slots : List Slot := K.slotsFrom 0

variable {K} {k m n p : Nat} {b : Block}

theorem getElem?_of_leaf? {c : Concrete} (h : K.leaf? k = some c) :
    K.siblings[k]? = some (.leaf c) := by
  obtain ⟨x, hx, hc⟩ := Option.bind_eq_some_iff.1 h
  cases x <;> cases hc
  exact hx

theorem hasNode_of_comment (h : K.siblings[k]? = some (.comment b)) : K.hasNode k = false := by
  rw [hasNode, h]

theorem lt_length_of_hasNode (h : K.hasNode k = true) : k < K.siblings.length := by
  by_contra hk
  rw [hasNode, List.getElem?_eq_none (Nat.not_lt.1 hk)] at h
  cases h

theorem prev?_lt (h : K.prev? k = some p) : p < k := by
  induction k with
  | zero => cases h
  | succ k ih =>
    rw [prev?] at h
    split at h
    · cases h
      exact Nat.lt_succ_self _
    · exact Nat.lt_succ_of_lt (ih h)

/-- No node before a position is nearer than the nearest. -/
theorem exists_prev? (hm : K.hasNode m = true) (h : m < k) : ∃ p, K.prev? k = some p ∧ m ≤ p := by
  induction k with
  | zero => exact absurd h (Nat.not_lt_zero m)
  | succ k ih =>
    rw [prev?]
    split
    · exact ⟨k, rfl, Nat.le_of_lt_succ h⟩
    · rename_i hk
      have hne : m ≠ k := by
        rintro rfl
        exact hk hm
      exact ih (by omega)

/-- Positions without a node between them have the same node before them. -/
theorem prev?_eq_prev? (hnk : n ≤ k) (h : ∀ q, n ≤ q → q < k → K.hasNode q = false) :
    K.prev? k = K.prev? n := by
  induction hnk with
  | refl => rfl
  | @step k hnk ih =>
    rw [prev?, h k hnk (Nat.lt_succ_self k)]
    exact ih fun q hq hlt ↦ h q hq (Nat.lt_succ_of_lt hlt)

theorem lt_of_next? (h : K.next? k = some n) : k < n := by
  have hmem := List.mem_of_find?_eq_some h
  exact (List.mem_range'_1.1 hmem).1

/-- No node behind a position is nearer than the nearest. -/
theorem exists_next? (hm : K.hasNode m = true) (h : k < m) : ∃ n, K.next? k = some n ∧ n ≤ m := by
  have hlt := lt_length_of_hasNode hm
  cases hn : K.next? k with
  | none =>
    rw [next?, List.find?_eq_none] at hn
    exact absurd hm (hn m (List.mem_range'_1.2 ⟨h, by omega⟩))
  | some n =>
    refine ⟨n, rfl, ?_⟩
    by_contra hmn
    rw [next?, List.find?_range'_eq_some] at hn
    have hfalse := hn.2.2 m h (by omega)
    rw [hm] at hfalse
    cases hfalse

theorem next?_eq_some (hm : K.hasNode m = true) (hkm : k < m)
    (h : ∀ q, k < q → q < m → K.hasNode q = false) : K.next? k = some m := by
  obtain ⟨n, hn, hle⟩ := exists_next? hm hkm
  have hlt := lt_of_next? hn
  have hnode : K.hasNode n = true := List.find?_some hn
  rcases Nat.lt_or_eq_of_le hle with hlt' | rfl
  · rw [h n hlt hlt'] at hnode
    cases hnode
  · exact hn

theorem next?_eq_none (h : ∀ q, k < q → K.hasNode q = false) : K.next? k = none := by
  rw [next?, List.find?_eq_none]
  intro q hq
  rw [h q (List.mem_range'_1.1 hq).1]
  exact Bool.false_ne_true

/-! ### Hosts -/

theorem ahead_ne_behind : K.ahead k ≠ .behind p := by
  rw [ahead]
  split
  · split <;> simp
  · split <;> simp

theorem of_ahead_eq_before (h : K.ahead k = .before n) :
    K.next? k = some n ∧ ∃ c, K.leaf? n = some c := by
  rw [ahead] at h
  split at h
  · rename_i hnext
    split at h
    · rename_i hleaf
      cases h
      exact ⟨hnext, Option.isSome_iff_exists.1 hleaf⟩
    · cases h
  · split at h <;> cases h

theorem of_ahead_eq_atEnd (h : K.ahead k = .atEnd) : K.next? k = none ∧ K.isRoot = true := by
  rw [ahead] at h
  split at h
  · split at h <;> cases h
  · rename_i hnext
    split at h
    · rename_i hroot
      exact ⟨hnext, hroot⟩
    · cases h

theorem host_of_row (h : K.rowBefore k = some b.first.label.start.row) (hp : K.prev? k = some p) :
    K.host k b = .behind p := by
  rw [host, hp]
  exact if_pos h

theorem host_of_row_ne (h : K.rowBefore k ≠ some b.first.label.start.row) :
    K.host k b = K.ahead k := by
  rw [host]
  split
  · exact if_neg h
  · rfl

theorem host_cases (K : Container) (k : Nat) (b : Block) :
    (∃ p, K.prev? k = some p ∧ K.rowBefore k = some b.first.label.start.row ∧
      K.host k b = .behind p) ∨
    (K.rowBefore k ≠ some b.first.label.start.row ∧ K.host k b = K.ahead k) := by
  by_cases h : K.rowBefore k = some b.first.label.start.row
  · cases hp : K.prev? k with
    | none =>
      rw [rowBefore, hp] at h
      cases h
    | some p => exact .inl ⟨p, rfl, h, host_of_row h hp⟩
  · exact .inr ⟨h, host_of_row_ne h⟩

theorem of_host_eq_behind (h : K.host k b = .behind p) :
    K.prev? k = some p ∧ ∃ c, K.leaf? p = some c := by
  rcases host_cases K k b with ⟨q, hq, hrow, hhost⟩ | ⟨-, hhost⟩
  · cases hhost.symm.trans h
    rw [rowBefore, hq] at hrow
    obtain ⟨c, hc, -⟩ := Option.map_eq_some_iff.1 hrow
    exact ⟨hq, c, hc⟩
  · exact absurd (hhost.symm.trans h) ahead_ne_behind

theorem of_host_eq_before (h : K.host k b = .before n) :
    K.next? k = some n ∧ ∃ c, K.leaf? n = some c := by
  rcases host_cases K k b with ⟨q, -, -, hhost⟩ | ⟨-, hhost⟩
  · cases hhost.symm.trans h
  · exact of_ahead_eq_before (hhost.symm.trans h)

theorem of_host_eq_atEnd (h : K.host k b = .atEnd) : K.next? k = none ∧ K.isRoot = true := by
  rcases host_cases K k b with ⟨q, -, -, hhost⟩ | ⟨-, hhost⟩
  · cases hhost.symm.trans h
  · exact of_ahead_eq_atEnd (hhost.symm.trans h)

theorem mem_hosted (hk : K.siblings[k]? = some (.comment b)) : b ∈ K.hosted (K.host k b) :=
  List.mem_filterMap.2 ⟨(.comment b, k), List.mk_mem_zipIdx_iff_getElem?.2 hk, if_pos rfl⟩

/-- A leaf has a token with the blocks that lead and trail it. -/
theorem leaf_mem_slots {c : Concrete} (h : K.leaf? k = some c) :
    .leaf k c (K.hosted (.before k)) (K.hosted (.behind k)) ∈ K.slots :=
  List.mem_append_left _ (List.mem_filterMap.2
    ⟨_, List.mk_mem_zipIdx_iff_getElem?.2 (getElem?_of_leaf? h), rfl⟩)

/-- **No block is lost**: there is a token that carries it as its host says. -/
theorem exists_slot (hk : K.siblings[k]? = some (.comment b)) :
    ∃ s ∈ K.slots, s.Carries (K.host k b) b := by
  have hmem := mem_hosted hk
  cases hhost : K.host k b with
  | behind p =>
    rw [hhost] at hmem
    obtain ⟨c, hc⟩ := (of_host_eq_behind hhost).2
    exact ⟨_, leaf_mem_slots hc, .inl ⟨rfl, hmem⟩⟩
  | before n =>
    rw [hhost] at hmem
    obtain ⟨c, hc⟩ := (of_host_eq_before hhost).2
    exact ⟨_, leaf_mem_slots hc, .inr ⟨rfl, hmem⟩⟩
  | atEnd =>
    rw [hhost] at hmem
    refine ⟨.endOfFile (K.hosted .atEnd), List.mem_append_right _ ?_, rfl, hmem⟩
    rw [ending, if_pos (of_host_eq_atEnd hhost).2]
    exact List.mem_singleton_self _
  | alone =>
    exact ⟨.anchor b, List.mem_append_left _ (List.mem_filterMap.2
      ⟨_, List.mk_mem_zipIdx_iff_getElem?.2 hk, if_pos hhost⟩), rfl, rfl⟩

/-! ### Gaps -/

/-- Whether some siblings are those from a position on, which is the first or behind a node. -/
structure Resumes (K : Container) (n : Nat) (xs : List Arranged) : Prop where
  le : n ≤ K.siblings.length
  drop_eq : K.siblings.drop n = xs
  hasNode_before : ∀ p, n = p + 1 → K.hasNode p = true

theorem resumes_zero (K : Container) : K.Resumes 0 K.siblings :=
  ⟨Nat.zero_le _, rfl, fun _ h ↦ absurd h (Nat.succ_ne_zero _).symm⟩

/-- Whether some blocks are all those from a position on up to the next node. -/
structure IsGap (K : Container) (n : Nat) (blocks : List Block) (rest : List Arranged) : Prop
    extends K.Resumes n (blocks.map .comment ++ rest) where
  rest_ne : ∀ b more, rest ≠ .comment b :: more

namespace IsGap

variable {blocks : List Block} {rest : List Arranged} (h : K.IsGap n blocks rest)

include h

/-- The siblings before the gap, in it and behind it. -/
theorem zipIdx_eq : K.siblings.zipIdx = (K.siblings.take n).zipIdx ++
    ((blocks.map Arranged.comment).zipIdx n ++ rest.zipIdx (n + blocks.length)) := by
  conv_lhs => rw [← List.take_append_drop n K.siblings, List.zipIdx_append, h.drop_eq,
    List.zipIdx_append, List.length_take_of_le h.le, List.length_map, Nat.zero_add]

theorem getElem?_add (i : Nat) :
    K.siblings[n + i]? = (blocks.map Arranged.comment ++ rest)[i]? := by
  rw [← h.drop_eq, List.getElem?_drop]

/-- What stands behind the gap. -/
theorem getElem?_stop : K.siblings[n + blocks.length]? = rest.head? := by
  rw [h.getElem?_add, List.getElem?_append_right (by simp), List.length_map, Nat.sub_self,
    List.head?_eq_getElem?]

theorem leaf?_stop : K.leaf? (n + blocks.length) = rest.head?.bind Arranged.leaf? := by
  rw [leaf?, h.getElem?_stop]

/-- There is no node in the gap. -/
theorem hasNode_inside {q : Nat} (hn : n ≤ q) (hq : q < n + blocks.length) :
    K.hasNode q = false := by
  obtain ⟨i, rfl⟩ := Nat.exists_eq_add_of_le hn
  have hi : i < blocks.length := Nat.lt_of_add_lt_add_left hq
  refine hasNode_of_comment (b := blocks[i]) ?_
  rw [h.getElem?_add, List.getElem?_append_left (by simpa using hi), List.getElem?_map,
    List.getElem?_eq_getElem hi]
  rfl

/-- The blocks of the gap have the node before it before them. -/
theorem prev?_inside {i : Nat} (hi : i ≤ blocks.length) : K.prev? (n + i) = K.prev? n :=
  prev?_eq_prev? (Nat.le_add_right n i) fun _ hn hq ↦
    h.hasNode_inside hn (Nat.lt_of_lt_of_le hq (Nat.add_le_add_left hi n))

theorem prev?_start (hn : n = p + 1) : K.prev? n = some p := by
  rw [hn, prev?, h.hasNode_before p hn]
  rfl

theorem rowBefore_inside {i : Nat} (hi : i ≤ blocks.length) :
    K.rowBefore (n + i) = K.rowBefore n := by
  rw [rowBefore, rowBefore, h.prev?_inside hi]

/-- There is a node behind the gap, if anything is. -/
theorem hasNode_stop (hrest : rest ≠ []) : K.hasNode (n + blocks.length) = true := by
  obtain ⟨x, more, rfl⟩ := List.exists_cons_of_ne_nil hrest
  rw [hasNode, h.getElem?_stop]
  cases x with
  | comment b => exact absurd rfl (h.rest_ne b more)
  | leaf c => rfl
  | inner c below => rfl

theorem length_eq : K.siblings.length = n + blocks.length + rest.length := by
  have hdrop := congrArg List.length h.drop_eq
  rw [List.length_drop, List.length_append, List.length_map] at hdrop
  have hle := h.le
  omega

/-- The blocks of the gap have the node behind it behind them. -/
theorem next?_inside {i : Nat} (hi : i < blocks.length) (hrest : rest ≠ []) :
    K.next? (n + i) = some (n + blocks.length) :=
  next?_eq_some (h.hasNode_stop hrest) (Nat.add_lt_add_left hi n) fun q hq hlt ↦
    h.hasNode_inside (by omega) hlt

/-- Blocks at the end have no node behind them. -/
theorem next?_end {i : Nat} (hrest : rest = []) : K.next? (n + i) = none := by
  refine next?_eq_none fun q hq ↦ ?_
  by_cases hlt : q < n + blocks.length
  · exact h.hasNode_inside (by omega) hlt
  · have hlength := h.length_eq
    rw [hrest, List.length_nil] at hlength
    rw [hasNode, List.getElem?_eq_none (by omega)]

theorem ahead_leaf {i : Nat} {c : Concrete} (hi : i < blocks.length)
    (hrest : rest.head? = some (.leaf c)) : K.ahead (n + i) = .before (n + blocks.length) := by
  have hne : rest ≠ [] := by
    rintro rfl
    cases hrest
  rw [ahead, h.next?_inside hi hne]
  show (if (K.leaf? _).isSome then _ else _) = _
  rw [h.leaf?_stop, hrest]
  rfl

theorem ahead_inner {i : Nat} {c : Concrete} {below : List Arranged} (hi : i < blocks.length)
    (hrest : rest.head? = some (.inner c below)) : K.ahead (n + i) = .alone := by
  have hne : rest ≠ [] := by
    rintro rfl
    cases hrest
  rw [ahead, h.next?_inside hi hne]
  show (if (K.leaf? _).isSome then _ else _) = _
  rw [h.leaf?_stop, hrest]
  rfl

theorem ahead_end {i : Nat} (hrest : rest = []) :
    K.ahead (n + i) = if K.isRoot then .atEnd else .alone := by
  rw [ahead, h.next?_end hrest]

/-- A block outside the gap has a node nearer to it than those around the gap. -/
theorem outside (hk : K.siblings[k]? = some (.comment b)) (hout : k < n ∨ n + blocks.length ≤ k) :
    (∃ q, K.next? k = some q ∧ q < n) ∨
      n + blocks.length < k ∧ ∃ q, K.prev? k = some q ∧ n + blocks.length ≤ q := by
  rcases hout with hkn | hmk
  · left
    obtain ⟨p, rfl⟩ : ∃ p, n = p + 1 := Nat.exists_eq_succ_of_ne_zero (Nat.ne_zero_of_lt hkn)
    have hp := h.hasNode_before p rfl
    have hne : k ≠ p := by
      rintro rfl
      rw [hasNode_of_comment hk] at hp
      cases hp
    obtain ⟨q, hq, hle⟩ := exists_next? hp (show k < p by omega)
    exact ⟨q, hq, Nat.lt_succ_of_le hle⟩
  · right
    have hlt := (List.getElem?_eq_some_iff.1 hk).1
    have hrest : rest ≠ [] := by
      rintro rfl
      have hlength := h.length_eq
      rw [List.length_nil] at hlength
      omega
    have hm := h.hasNode_stop hrest
    have hne : n + blocks.length ≠ k := by
      rintro rfl
      rw [hasNode_of_comment hk] at hm
      cases hm
    exact ⟨by omega, exists_prev? hm (by omega)⟩

omit h in
/-- The blocks among some siblings that have a given host. -/
theorem filterMap_hostedAt {host : Host} {q : Block → Bool} {blocks : List Block} {n : Nat}
    (h : ∀ i b, blocks[i]? = some b → (K.host (n + i) b = host ↔ q b = true)) :
    ((blocks.map Arranged.comment).zipIdx n).filterMap (K.hostedAt host) = blocks.filter q := by
  induction blocks generalizing n with
  | nil => rfl
  | cons b blocks ih =>
    have hrest := ih (n := n + 1) fun i b hb ↦ by
      rw [Nat.add_assoc, Nat.add_comm 1 i]
      exact h (i + 1) b hb
    have hb : K.host n b = host ↔ q b = true := h 0 b rfl
    rw [List.map_cons, List.zipIdx_cons, List.filterMap_cons, List.filter_cons, hrest, hostedAt]
    by_cases hq : q b = true
    · rw [if_pos (hb.2 hq), if_pos hq]
    · rw [if_neg fun hhost ↦ hq (hb.1 hhost), if_neg hq]

/-- The blocks with a given host are among those of the gap, if no others have it. -/
theorem hosted_eq {host : Host} {q : Block → Bool}
    (hin : ∀ i b, blocks[i]? = some b → (K.host (n + i) b = host ↔ q b = true))
    (hout : ∀ k b, K.siblings[k]? = some (.comment b) → k < n ∨ n + blocks.length ≤ k →
      K.host k b ≠ host) : K.hosted host = blocks.filter q := by
  have hnone : ∀ x k, K.siblings[k]? = some x → k < n ∨ n + blocks.length ≤ k →
      K.hostedAt host (x, k) = none := by
    intro x k hk hlt
    cases x with
    | comment b => exact if_neg (hout k b hk hlt)
    | leaf c => rfl
    | inner c below => rfl
  have hfront : (K.siblings.take n).zipIdx.filterMap (K.hostedAt host) = [] := by
    refine List.filterMap_eq_nil_iff.2 ?_
    rintro ⟨x, k⟩ hx
    rw [List.mk_mem_zipIdx_iff_getElem?, List.getElem?_take] at hx
    split at hx
    · exact hnone x k hx (.inl ‹_›)
    · cases hx
  have hback : (rest.zipIdx (n + blocks.length)).filterMap (K.hostedAt host) = [] := by
    refine List.filterMap_eq_nil_iff.2 ?_
    rintro ⟨x, k⟩ hx
    obtain ⟨hle, hx⟩ := List.mk_mem_zipIdx_iff_le_and_getElem?_sub.1 hx
    obtain ⟨i, rfl⟩ := Nat.exists_eq_add_of_le hle
    refine hnone x _ ?_ (.inr hle)
    rw [Nat.add_assoc, h.getElem?_add, List.getElem?_append_right (by simp), List.length_map]
    simpa using hx
  rw [hosted, h.zipIdx_eq, List.filterMap_append, List.filterMap_append, hfront, hback,
    filterMap_hostedAt hin, List.nil_append, List.append_nil]

/-- What a block of the gap trails is before the gap, and what it leads is behind it. -/
theorem host_inside {i : Nat} (hb : blocks[i]? = some b) :
    (∃ p, K.prev? n = some p ∧ b.startsOn (K.rowBefore n) = true ∧ K.host (n + i) b = .behind p) ∨
      b.startsOn (K.rowBefore n) = false ∧ K.host (n + i) b = K.ahead (n + i) := by
  have hi := (List.getElem?_eq_some_iff.1 hb).1
  rcases host_cases K (n + i) b with ⟨p, hp, hrow, hhost⟩ | ⟨hrow, hhost⟩
  · rw [h.prev?_inside (Nat.le_of_lt hi)] at hp
    rw [h.rowBefore_inside (Nat.le_of_lt hi)] at hrow
    exact .inl ⟨p, hp, beq_iff_eq.2 hrow, hhost⟩
  · rw [h.rowBefore_inside (Nat.le_of_lt hi)] at hrow
    exact .inr ⟨beq_eq_false_iff_ne.2 hrow, hhost⟩

theorem host_inside_iff {i : Nat} {host : Host} (hb : blocks[i]? = some b)
    (hahead : K.ahead (n + i) = host) :
    K.host (n + i) b = host ↔ (!b.startsOn (K.rowBefore n)) = true := by
  rcases h.host_inside hb with ⟨p, -, hrow, hhost⟩ | ⟨hrow, hhost⟩
  · rw [hhost, hrow, ← hahead]
    exact iff_of_false ahead_ne_behind.symm Bool.false_ne_true
  · rw [hhost, hrow]
    exact iff_of_true hahead rfl

/-- **The blocks that trail a leaf** are those of the gap behind it that start on its row. -/
theorem hosted_behind (hn : n = p + 1) :
    K.hosted (.behind p) = blocks.filter (Block.startsOn (K.rowBefore n)) := by
  have hp := h.prev?_start hn
  refine h.hosted_eq (fun i b hb ↦ ?_) fun k b hk hout hhost ↦ ?_
  · rcases h.host_inside hb with ⟨q, hq, hrow, hhost⟩ | ⟨hrow, hhost⟩
    · cases hp.symm.trans hq
      exact iff_of_true hhost hrow
    · rw [hhost, hrow]
      exact iff_of_false ahead_ne_behind Bool.false_ne_true
  · obtain ⟨hprev, -⟩ := of_host_eq_behind hhost
    rcases h.outside hk hout with ⟨q, hq, hlt⟩ | ⟨-, q, hq, hle⟩
    · have hkq := lt_of_next? hq
      have hpk := prev?_lt hprev
      omega
    · cases hprev.symm.trans hq
      omega

/-- **The blocks that lead a leaf** are those of the gap before it that do not trail. -/
theorem hosted_before {c : Concrete} (hrest : rest.head? = some (.leaf c)) :
    K.hosted (.before (n + blocks.length)) =
      blocks.filter fun b ↦ !b.startsOn (K.rowBefore n) := by
  refine h.hosted_eq (fun i b hb ↦ ?_) fun k b hk hout hhost ↦ ?_
  · have hi := (List.getElem?_eq_some_iff.1 hb).1
    exact h.host_inside_iff hb (h.ahead_leaf hi hrest)
  · obtain ⟨hnext, -⟩ := of_host_eq_before hhost
    rcases h.outside hk hout with ⟨q, hq, hlt⟩ | ⟨hlt, -⟩
    · cases hnext.symm.trans hq
      omega
    · have hkm := lt_of_next? hnext
      omega

/-- **The blocks at the end of the root** are those of the last gap that do not trail. -/
theorem hosted_atEnd (hroot : K.isRoot = true) (hrest : rest = []) :
    K.hosted .atEnd = blocks.filter fun b ↦ !b.startsOn (K.rowBefore n) := by
  refine h.hosted_eq (fun i b hb ↦ ?_) fun k b hk hout hhost ↦ ?_
  · have hahead := h.ahead_end (i := i) hrest
    rw [hroot] at hahead
    exact h.host_inside_iff hb hahead
  · rcases h.outside hk hout with ⟨q, hq, -⟩ | ⟨hlt, -⟩
    · cases (of_host_eq_atEnd hhost).1.symm.trans hq
    · have hk := (List.getElem?_eq_some_iff.1 hk).1
      have hlength := h.length_eq
      rw [hrest, List.length_nil] at hlength
      omega

omit h in
theorem filterMap_slotAt (K : Container) (blocks : List Block) (n : Nat) :
    ((blocks.map Arranged.comment).zipIdx n).filterMap K.slotAt =
      (((blocks.map Arranged.comment).zipIdx n).filterMap (K.hostedAt .alone)).map .anchor := by
  induction blocks generalizing n with
  | nil => rfl
  | cons b blocks ih =>
    rw [List.map_cons, List.zipIdx_cons, List.filterMap_cons, List.filterMap_cons, ih, slotAt,
      hostedAt]
    by_cases hb : K.host n b = .alone
    · rw [if_pos hb, if_pos hb]
      rfl
    · rw [if_neg hb, if_neg hb]

/-- Blocks that no other token carries have tokens of their own, unless they trail. -/
theorem slots_alone (hahead : ∀ i < blocks.length, K.ahead (n + i) = .alone) :
    ((blocks.map Arranged.comment).zipIdx n).filterMap K.slotAt =
      (blocks.filter fun b ↦ !b.startsOn (K.rowBefore n)).map .anchor := by
  rw [filterMap_slotAt, filterMap_hostedAt fun i b hb ↦
    h.host_inside_iff hb (hahead i (List.getElem?_eq_some_iff.1 hb).1)]

/-- Blocks that another token carries have none of their own. -/
theorem slots_not_alone (hahead : ∀ i < blocks.length, K.ahead (n + i) ≠ .alone) :
    ((blocks.map Arranged.comment).zipIdx n).filterMap K.slotAt = [] := by
  have hnone : ∀ i b, blocks[i]? = some b → (K.host (n + i) b = .alone ↔ false = true) := by
    intro i b hb
    refine iff_of_false ?_ Bool.false_ne_true
    rcases h.host_inside hb with ⟨p, -, -, hhost⟩ | ⟨-, hhost⟩
    · rw [hhost]
      exact Host.noConfusion
    · rw [hhost]
      exact hahead i (List.getElem?_eq_some_iff.1 hb).1
  rw [filterMap_slotAt, filterMap_hostedAt (q := fun _ ↦ false) hnone, List.filter_false]
  rfl

end IsGap

/-! ### Gap by gap -/

section

variable {blocks : List Block} {rest : List Arranged} {c : Concrete} {below : List Arranged}

/-- What is left behind a gap and the node behind it. -/
theorem IsGap.drop_succ {x : Arranged} (h : K.IsGap n blocks (x :: rest)) :
    K.siblings.drop (n + blocks.length + 1) = rest := by
  have hlength : (blocks.map Arranged.comment).length = blocks.length := List.length_map _
  rw [Nat.add_assoc, ← List.drop_drop, h.drop_eq, ← hlength, ← List.drop_drop, List.drop_left]
  rfl

/-- The siblings go on behind the node that ends a gap. -/
theorem IsGap.resumes {x : Arranged} (h : K.IsGap n blocks (x :: rest)) :
    K.Resumes (n + blocks.length + 1) rest := by
  have hnode := h.hasNode_stop (List.cons_ne_nil _ _)
  refine ⟨lt_length_of_hasNode hnode, h.drop_succ, fun p hp ↦ ?_⟩
  cases hp
  exact hnode

theorem IsGap.slotsFrom_eq {x : Arranged} (h : K.IsGap n blocks (x :: rest)) {s : Slot}
    (hs : K.slotAt (x, n + blocks.length) = some s) :
    K.slotsFrom n = ((blocks.map Arranged.comment).zipIdx n).filterMap K.slotAt ++
      s :: K.slotsFrom (n + blocks.length + 1) := by
  rw [slotsFrom, h.drop_eq, List.zipIdx_append, List.filterMap_append, List.length_map,
    List.zipIdx_cons, List.filterMap_cons, hs, slotsFrom, h.drop_succ, List.append_assoc]
  rfl

/-- **Up to a leaf**: the blocks of the gap lead it, unless they trail the leaf before them. -/
theorem IsGap.slotsFrom_leaf (h : K.IsGap n blocks (.leaf c :: rest)) :
    K.slotsFrom n = .leaf (n + blocks.length) c
        (blocks.filter fun b ↦ !b.startsOn (K.rowBefore n))
        (K.hosted (.behind (n + blocks.length))) ::
      K.slotsFrom (n + blocks.length + 1) := by
  have hahead : ∀ i < blocks.length, K.ahead (n + i) ≠ .alone := by
    intro i hi
    rw [h.ahead_leaf hi rfl]
    exact Host.noConfusion
  rw [h.slotsFrom_eq rfl, h.slots_not_alone hahead, h.hosted_before rfl]
  rfl

/-- **Up to an interior node**: the blocks of the gap have tokens of their own, unless they trail
the leaf before them. -/
theorem IsGap.slotsFrom_inner (h : K.IsGap n blocks (.inner c below :: rest)) :
    K.slotsFrom n = (blocks.filter fun b ↦ !b.startsOn (K.rowBefore n)).map .anchor ++
      .inner c :: K.slotsFrom (n + blocks.length + 1) := by
  rw [h.slotsFrom_eq rfl, h.slots_alone fun i hi ↦ h.ahead_inner hi rfl]

/-- **Up to the end of the root**: the blocks lead the end-of-file token, unless they trail the leaf
before them. -/
theorem IsGap.slotsFrom_root (h : K.IsGap n blocks []) (hroot : K.isRoot = true) :
    K.slotsFrom n = [.endOfFile (blocks.filter fun b ↦ !b.startsOn (K.rowBefore n))] := by
  have hahead : ∀ i < blocks.length, K.ahead (n + i) ≠ .alone := by
    intro i _
    rw [h.ahead_end rfl, hroot]
    exact Host.noConfusion
  rw [slotsFrom, h.drop_eq, List.append_nil, h.slots_not_alone hahead, ending, if_pos hroot,
    h.hosted_atEnd hroot rfl]
  rfl

/-- **Up to the end of another node**: the blocks have tokens of their own, unless they trail the
leaf before them. -/
theorem IsGap.slotsFrom_end (h : K.IsGap n blocks []) (hroot : K.isRoot = false) :
    K.slotsFrom n = (blocks.filter fun b ↦ !b.startsOn (K.rowBefore n)).map .anchor := by
  have hahead : ∀ i < blocks.length, K.ahead (n + i) = .alone := by
    intro i _
    rw [h.ahead_end rfl, hroot]
    rfl
  rw [slotsFrom, h.drop_eq, List.append_nil, h.slots_alone hahead, ending, hroot]
  exact List.append_nil _

theorem IsGap.rowBefore_leaf (h : K.IsGap n blocks (.leaf c :: rest)) :
    K.rowBefore (n + blocks.length + 1) = some c.label.stop.row := by
  rw [rowBefore, prev?, if_pos (h.hasNode_stop (List.cons_ne_nil _ _))]
  show (K.leaf? _).map _ = _
  rw [h.leaf?_stop]
  rfl

theorem IsGap.rowBefore_inner (h : K.IsGap n blocks (.inner c below :: rest)) :
    K.rowBefore (n + blocks.length + 1) = none := by
  rw [rowBefore, prev?, if_pos (h.hasNode_stop (List.cons_ne_nil _ _))]
  show (K.leaf? _).map _ = _
  rw [h.leaf?_stop]
  rfl

end

end Container

end CommentScope
