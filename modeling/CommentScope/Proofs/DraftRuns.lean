import CommentScope.Proofs.Links

/-!
# Runs of a draft

Whatever is asked of a draft, in whatever order, and whether or not it is refused, parents and
children agree in all trees that are built on the way, and nothing that is there is moved or taken
back (`Draft.serve_keeps_links`).

The operations of a draft yield the next draft or a fault. Here they are done in place and in steps
(`Draft.InPlace`): a node is appended, then its parent is told of it, then its trivia are added, and
a fault would leave a draft as the steps before it have made it. `Draft.Request.steps_eq` says that
no fault comes late: the steps do what the operation does, and a refused request does nothing. What
is kept is then shown of the two ways in which an arena changes: a node is added under a parent
(`Draft.linked`), and trivia are added behind a token (`Draft.trailed`).
-/

namespace CommentScope

open Annotated (refs placesUnder placesUnder_append placesUnder_eq_nil)

/-- A node with further trivia before it. -/
def Node.withLeading (n : Node) (ts : List Trivia) : Node := { n with leading := n.leading ++ ts }

/-- A node with further trivia behind it. -/
def Node.withTrailing (n : Node) (ts : List Trivia) : Node :=
  { n with trailing := n.trailing ++ ts }

namespace Draft

/-! ### What a draft is asked for -/

/-- A draft with one more node, of which its parent knows. -/
def linked (d : Draft) (parent : Option Nat) (n : Node) : Draft where
  language := d.language
  nodes := ((parent.map fun p ↦ d.nodes.modify p (·.withChildren [d.nodes.size])).getD d.nodes).push
    { n with parent }

/-- A draft with trivia behind a token. -/
def trailed (d : Draft) (i : Nat) (trivia : Trivia) : Draft where
  language := d.language
  nodes := d.nodes.modify i (·.withTrailing [trivia])

/-- The parent that a node gets, if it may be added: none in an empty draft, an interior node
otherwise. -/
def placeFor (d : Draft) : Option Int → Except Fault (Option Nat)
  | none => if d.nodes.size = 0 then .ok none else .error .secondRoot
  | some p => (d.parentOf p).map some

/-- The position at which an index finds a token; a negative index counts from the end. -/
def tokenAt (d : Draft) (index : Int) : Except Fault Nat :=
  let position := if index < 0 then index + d.nodes.size else index
  if 0 ≤ position then
    match d.nodes[position.toNat]? with
    | none => .error .noSuchNode
    | some n => if n.isToken then .ok position.toNat else .error (.notToken index)
  else .error .noSuchNode

theorem push_eq (d : Draft) (parent : Option Int) (n : Node) :
    d.push parent n = (d.placeFor parent).map fun p ↦ (d.nodes.size, d.linked p n) := by
  cases parent with
  | none =>
    rw [push, placeFor]
    split <;> rfl
  | some p =>
    rw [push, placeFor]
    cases d.parentOf p <;> rfl

theorem addTrailing_eq (d : Draft) (index : Int) (trivia : Trivia) :
    d.addTrailing index trivia = (d.tokenAt index).map fun i ↦ d.trailed i trivia := by
  simp only [addTrailing, tokenAt]
  generalize (if index < 0 then index + d.nodes.size else index) = position
  by_cases hpos : 0 ≤ position
  · rw [if_pos hpos, if_pos hpos]
    cases d.nodes[position.toNat]? with
    | none => rfl
    | some n => cases hn : n.isToken <;> simp [hn, trailed, Node.withTrailing, Except.map]
  · rw [if_neg hpos, if_neg hpos]
    rfl

theorem isInterior_of_parentOf {d : Draft} {p : Int} {q : Nat} (h : d.parentOf p = .ok q) :
    d.IsInterior q := by
  unfold parentOf at h
  split at h
  · split at h
    · cases h
    · rename_i n hn
      split at h
      · cases h
      · rename_i ht
        cases h
        exact ⟨n, hn, Bool.eq_false_iff.2 ht⟩
  · cases h

/-- **A place is found** at the root of an empty draft, and under interior nodes. -/
theorem placeFor_eq_ok {d : Draft} {parent : Option Int} {place : Option Nat}
    (h : d.placeFor parent = .ok place) :
    (place = none ∧ d.nodes.size = 0) ∨ ∃ p, place = some p ∧ d.IsInterior p := by
  cases parent with
  | none =>
    rw [placeFor] at h
    split at h
    · cases h
      exact .inl ⟨rfl, ‹_›⟩
    · cases h
  | some p =>
    obtain ⟨q, hq, rfl⟩ := Outcome.map_eq_ok_iff.1 h
    exact .inr ⟨q, rfl, isInterior_of_parentOf hq⟩

/-- An interior node that is not placed yet. -/
def newNode (type : String) (role : Role) (name : Option String) (span : Option Span) : Node where
  type := type
  role := role
  parent := none
  children := #[]
  span := span.getD noSpan
  name := name
  text := none
  leading := []
  trailing := []

/-- A token that is not placed yet. -/
def newToken (text : String) (type : Option String) (span : Option Span)
    (leading trailing : List Trivia) : Node where
  type := tokenType type text
  role := .nothing
  parent := none
  children := #[]
  span := span.getD noSpan
  name := none
  text := some text
  leading := leading
  trailing := trailing

/-- What may be asked of a draft: one of its operations with its arguments. A node that is given no
span gets an empty one. -/
inductive Request where
  | addNode (type : String) (parent : Option Int) (role : Role) (name : Option String)
    (span : Option Span)
  | addToken (text : String) (parent : Option Int) (type : Option String) (span : Option Span)
    (leading trailing : List Trivia)
  | addTrailing (index : Int) (trivia : Trivia)
  | build

/-- What a draft answers: where the new node stands, that the trivia are there, or a tree. -/
inductive Answer where
  | place (i : Nat)
  | done
  | tree (t : Tree)

/-- The operation that is asked for, as one step from draft to draft. -/
def Request.operation (d : Draft) : Request → Except Fault (Answer × Draft)
  | .addNode type parent role name span =>
    (d.addNode type parent role name (span.getD noSpan)).map fun r ↦ (.place r.1, r.2)
  | .addToken text parent type span leading trailing =>
    (d.addToken text parent type (span.getD noSpan) leading trailing).map fun r ↦
      (.place r.1, r.2)
  | .addTrailing index trivia => (d.addTrailing index trivia).map fun e ↦ (.done, e)
  | .build => d.build.map fun t ↦ (.tree t, d)

/-! ### Steps in place -/

/-- Steps on a draft that is changed in place. A fault ends them, but takes nothing back. -/
abbrev InPlace (α : Type) := ExceptT Fault (StateM Draft) α

namespace InPlace

variable {α β : Type}

/-- Runs steps on a draft. -/
def runOn (x : InPlace α) (d : Draft) : Except Fault α × Draft := StateT.run (ExceptT.run x) d

/-- Finds something out about the draft. -/
def ask (f : Draft → Except Fault α) : InPlace α := ExceptT.mk fun d ↦ (f d, d)

/-- Changes the nodes of the draft. -/
def edit (f : Array Node → Array Node) : InPlace Unit :=
  modify fun d ↦ { d with nodes := f d.nodes }

/-- Appends a node, and then tells its parent. -/
def push (parent : Option Int) (n : Node) : InPlace Nat := do
  let place ← ask (·.placeFor parent)
  let i ← ask fun d ↦ .ok d.nodes.size
  edit (·.push { n with parent := place })
  match place with
  | none => pure i
  | some p => do
    edit (·.modify p (·.withChildren [i]))
    pure i

/-- Appends a token without trivia, and then adds its trivia. -/
def pushToken (parent : Option Int) (n : Node) : InPlace Nat := do
  let i ← push parent { n with leading := [], trailing := [] }
  edit (·.modify i (·.withLeading n.leading))
  edit (·.modify i (·.withTrailing n.trailing))
  pure i

/-- An operation done at once: it yields a draft, or a fault and nothing else. -/
def atOnce (op : Draft → Except Fault (α × Draft)) : InPlace α :=
  ExceptT.mk fun d ↦
    match op d with
    | .ok (a, e) => (.ok a, e)
    | .error fault => (.error fault, d)

theorem ext {x y : InPlace α} (h : ∀ d, x.runOn d = y.runOn d) : x = y := funext h

theorem runOn_bind (x : InPlace α) (k : α → InPlace β) (d : Draft) :
    (x >>= k).runOn d =
      match x.runOn d with
      | (.ok a, e) => (k a).runOn e
      | (.error fault, e) => (.error fault, e) := by
  unfold runOn ExceptT.run StateT.run
  simp only [bind, ExceptT.bind, ExceptT.mk, StateT.bind, ExceptT.bindCont]
  rcases x d with ⟨fault | a, e⟩ <;> rfl

theorem runOn_pure (a : α) (d : Draft) : (pure a : InPlace α).runOn d = (.ok a, d) := rfl

theorem runOn_ask (f : Draft → Except Fault α) (d : Draft) : (ask f).runOn d = (f d, d) := rfl

theorem runOn_edit (f : Array Node → Array Node) (d : Draft) :
    (edit f).runOn d = (.ok (), ⟨d.language, f d.nodes⟩) := rfl

theorem runOn_atOnce (op : Draft → Except Fault (α × Draft)) (d : Draft) :
    (atOnce op).runOn d =
      match op d with
      | .ok (a, e) => (.ok a, e)
      | .error fault => (.error fault, d) := rfl

/-- Modifying an entry that was there before another one was appended. -/
theorem modify_push_of_lt (f : Node → Node) {ns : Array Node} {i : Nat} (n : Node)
    (h : i < ns.size) : (ns.push n).modify i f = (ns.modify i f).push n := by
  refine Array.toList_inj.1 ?_
  rw [Array.toList_modify, Array.toList_push, Array.toList_push, Array.toList_modify]
  exact modify_append_of_lt f [n] (by simpa using h)

/-- Modifying the entry that was appended. -/
theorem modify_push_size (f : Node → Node) {ns : Array Node} {i : Nat} (n : Node)
    (h : ns.size = i) : (ns.push n).modify i f = ns.push (f n) := by
  refine Array.toList_inj.1 ?_
  rw [Array.toList_modify, Array.toList_push, Array.toList_push]
  exact modify_append_cons f n [] (by simpa using h)

/-- **No fault comes between appending a node and telling its parent.** -/
theorem push_eq (parent : Option Int) (n : Node) : push parent n = atOnce (·.push parent n) := by
  refine ext fun d ↦ ?_
  rw [push, runOn_bind, runOn_ask, runOn_atOnce, Draft.push_eq]
  cases hplace : d.placeFor parent with
  | error fault => rfl
  | ok place =>
    rcases placeFor_eq_ok hplace with ⟨rfl, -⟩ | ⟨p, rfl, hp⟩
    · rfl
    · have hmodify := modify_push_of_lt (·.withChildren [d.nodes.size])
        { n with parent := some p } hp.lt
      exact congrArg (fun ns ↦ (Except.ok d.nodes.size, (⟨d.language, ns⟩ : Draft))) hmodify

/-- **No fault comes between appending a token and adding its trivia.** -/
theorem pushToken_eq (parent : Option Int) (n : Node) :
    pushToken parent n = atOnce (·.push parent n) := by
  refine ext fun d ↦ ?_
  rw [pushToken, runOn_bind, push_eq, runOn_atOnce, runOn_atOnce, Draft.push_eq, Draft.push_eq]
  cases hplace : d.placeFor parent with
  | error fault => rfl
  | ok place =>
    have hsize : ((place.map fun p ↦ d.nodes.modify p (·.withChildren [d.nodes.size])).getD
        d.nodes).size = d.nodes.size := by
      cases place <;> simp
    simp only [Except.map, runOn_bind, runOn_edit, runOn_pure, linked]
    rw [modify_push_size _ _ hsize, modify_push_size _ _ hsize]
    rfl

end InPlace

/-- What is asked for, in steps. -/
def Request.steps : Request → InPlace Answer
  | .addNode type parent role name span => do
    let i ← InPlace.push parent (newNode type role name span)
    pure (.place i)
  | .addToken text parent type span leading trailing => do
    let i ← InPlace.pushToken parent (newToken text type span leading trailing)
    pure (.place i)
  | .addTrailing index trivia => do
    let i ← InPlace.ask (·.tokenAt index)
    InPlace.edit (·.modify i (·.withTrailing [trivia]))
    pure .done
  | .build => do
    let t ← InPlace.ask Draft.build
    pure (.tree t)

theorem Request.operation_addNode (d : Draft) (type : String) (parent : Option Int) (role : Role)
    (name : Option String) (span : Option Span) :
    operation d (.addNode type parent role name span) =
      (d.push parent (newNode type role name span)).map fun r ↦ (.place r.1, r.2) :=
  rfl

theorem Request.operation_addToken (d : Draft) (text : String) (parent : Option Int)
    (type : Option String) (span : Option Span) (leading trailing : List Trivia) :
    operation d (.addToken text parent type span leading trailing) =
      (d.push parent (newToken text type span leading trailing)).map fun r ↦ (.place r.1, r.2) :=
  rfl

/-- **A request is done at once or not at all:** its steps do what the operation does, and if it is
refused, none of them has changed anything. -/
theorem Request.steps_eq (r : Request) : r.steps = InPlace.atOnce r.operation := by
  refine InPlace.ext fun d ↦ ?_
  rw [InPlace.runOn_atOnce]
  cases r with
  | addNode type parent role name span =>
    rw [steps, InPlace.runOn_bind, InPlace.push_eq, InPlace.runOn_atOnce, operation_addNode]
    cases d.push parent (newNode type role name span) <;> rfl
  | addToken text parent type span leading trailing =>
    rw [steps, InPlace.runOn_bind, InPlace.pushToken_eq, InPlace.runOn_atOnce, operation_addToken]
    cases d.push parent (newToken text type span leading trailing) <;> rfl
  | addTrailing index trivia =>
    rw [steps, InPlace.runOn_bind, InPlace.runOn_ask, operation, addTrailing_eq]
    cases d.tokenAt index <;> rfl
  | build =>
    rw [steps, InPlace.runOn_bind, InPlace.runOn_ask, operation]
    cases d.build <;> rfl

/-- What is answered to a request, and the draft afterwards. -/
def answer (d : Draft) (r : Request) : Except Fault Answer × Draft := r.steps.runOn d

/-- What a request can lead to. -/
inductive Effect (d : Draft) : Except Fault Answer × Draft → Prop
  | refused (fault : Fault) : Effect d (.error fault, d)
  | first (n : Node) (empty : d.nodes.size = 0) (alone : n.children = #[]) :
      Effect d (.ok (.place d.nodes.size), d.linked none n)
  | below (p : Nat) (n : Node) (parent : d.IsInterior p) (alone : n.children = #[]) :
      Effect d (.ok (.place d.nodes.size), d.linked (some p) n)
  | trailed (i : Nat) (trivia : Trivia) : Effect d (.ok .done, d.trailed i trivia)
  | built (t : Tree) (h : d.build = .ok t) : Effect d (.ok (.tree t), d)

theorem effect_push (d : Draft) (parent : Option Int) (n : Node) (hn : n.children = #[]) :
    d.Effect ((InPlace.atOnce fun d ↦
      (d.push parent n).map fun r ↦ (Answer.place r.1, r.2)).runOn d) := by
  rw [InPlace.runOn_atOnce, push_eq]
  cases hplace : d.placeFor parent with
  | error fault => exact .refused fault
  | ok place =>
    rcases placeFor_eq_ok hplace with ⟨rfl, hempty⟩ | ⟨p, rfl, hp⟩
    · exact .first n hempty hn
    · exact .below p n hp hn

/-- **What a request can lead to:** it is refused and nothing has changed, or a node is added, or
trivia are added behind a token, or a tree is built and nothing has changed. -/
theorem effect_answer (d : Draft) (r : Request) : d.Effect (d.answer r) := by
  rw [answer, Request.steps_eq]
  cases r with
  | addNode type parent role name span =>
    exact effect_push d parent (newNode type role name span) rfl
  | addToken text parent type span leading trailing =>
    exact effect_push d parent (newToken text type span leading trailing) rfl
  | addTrailing index trivia =>
    rw [InPlace.runOn_atOnce, Request.operation, addTrailing_eq]
    cases d.tokenAt index with
    | error fault => exact .refused fault
    | ok i => exact .trailed i trivia
  | build =>
    rw [InPlace.runOn_atOnce, Request.operation]
    cases h : d.build with
    | error fault => exact .refused fault
    | ok t => exact .built t h

/-- Serves requests one after the other: what is answered to each, and the draft afterwards. -/
def serve (d : Draft) : List Request → List (Except Fault Answer) × Draft
  | [] => ([], d)
  | r :: rs => ((d.answer r).1 :: (serve (d.answer r).2 rs).1, (serve (d.answer r).2 rs).2)

/-! ### Links of a draft -/

/-- Whether parents and children of a draft agree: the first node alone has no parent, all others
have one that stands before them, a node lists the nodes under it in their order, and tokens have
no children. -/
structure WellLinked (d : Draft) : Prop where
  root {n : Node} : d.nodes[0]? = some n → n.parent = none
  parent {i : Nat} {n : Node} : d.nodes[i]? = some n → 0 < i → ∃ p, n.parent = some p ∧ p < i
  children {i : Nat} {n : Node} : d.nodes[i]? = some n →
    n.children = refs (placesUnder i 0 d.nodes.toList)
  token {i : Nat} {n : Node} : d.nodes[i]? = some n → n.isToken = true → n.children = #[]

/-- Where nodes stand under a parent depends on nothing but their parents. -/
theorem placesUnder_congr {p i : Nat} {ns ms : List Node}
    (h : ns.map Node.parent = ms.map Node.parent) : placesUnder p i ns = placesUnder p i ms := by
  induction ns generalizing ms i with
  | nil =>
    cases List.map_eq_nil_iff.1 h.symm
    rfl
  | cons n ns ih =>
    obtain ⟨m, ms', rfl, hm, hrest⟩ := List.map_eq_cons_iff.1 h.symm
    have htail := ih (i := i + 1) hrest.symm
    rw [← List.singleton_append, ← List.singleton_append (l := ms'), placesUnder_append,
      placesUnder_append]
    rw [List.length_singleton, List.length_singleton, htail]
    refine congrArg (· ++ _) ?_
    cases hp : n.parent == some p <;> simp [placesUnder, hm, hp]

/-- A node that is rewritten elsewhere than in its links. -/
theorem map_parent_modify {ns : Array Node} {i : Nat} {f : Node → Node}
    (h : ∀ n, (f n).parent = n.parent) :
    (ns.modify i f).toList.map Node.parent = ns.toList.map Node.parent := by
  refine List.ext_getElem? fun k ↦ ?_
  rw [List.getElem?_map, List.getElem?_map, Array.getElem?_toList, Array.getElem?_toList,
    Array.getElem?_modify]
  split
  · cases ns[k]? <;> simp [h]
  · rfl

theorem wellLinked_empty (language : Option Language) : (empty language).WellLinked where
  root h := by simp [empty] at h
  parent h := by simp [empty] at h
  children h := by simp [empty] at h
  token h := by simp [empty] at h

/-- A first node has no links. -/
theorem wellLinked_first {d : Draft} {n : Node} (hempty : d.nodes.size = 0)
    (hn : n.children = #[]) : (d.linked none n).WellLinked := by
  have hnodes : (d.linked none n).nodes = #[{ n with parent := none }] := by
    show d.nodes.push _ = _
    rw [Array.eq_empty_of_size_eq_zero hempty]
    rfl
  have honly : ∀ {i : Nat} {m : Node}, (d.linked none n).nodes[i]? = some m →
      i = 0 ∧ m = { n with parent := none } := by
    intro i m h
    rw [hnodes] at h
    obtain ⟨hi, rfl⟩ := Array.getElem?_eq_some_iff.1 h
    have hi0 : i = 0 := Nat.lt_one_iff.1 hi
    subst hi0
    exact ⟨rfl, rfl⟩
  refine ⟨fun h ↦ ?_, fun h hpos ↦ ?_, fun h ↦ ?_, fun h _ ↦ ?_⟩
  · rw [(honly h).2]
  · exact absurd (honly h).1 (Nat.pos_iff_ne_zero.1 hpos)
  · obtain ⟨rfl, rfl⟩ := honly h
    rw [hnodes]
    exact hn
  · rw [(honly h).2]
    exact hn

section

variable {d : Draft} {p : Nat} {n : Node}

/-- The nodes of a draft to which one was added. -/
theorem getElem?_linked {i : Nat} {m : Node} (h : (d.linked (some p) n).nodes[i]? = some m) :
    (i = d.nodes.size ∧ m = { n with parent := some p }) ∨
      ∃ m₀, d.nodes[i]? = some m₀ ∧ m = if p = i then m₀.withChildren [d.nodes.size] else m₀ := by
  have hget : (d.linked (some p) n).nodes[i]? = if i = d.nodes.size then
      some { n with parent := some p } else
      if p = i then (d.nodes[i]?).map (·.withChildren [d.nodes.size]) else d.nodes[i]? := by
    show ((d.nodes.modify p (·.withChildren [d.nodes.size])).push _)[i]? = _
    rw [Array.getElem?_push, Array.size_modify, Array.getElem?_modify]
  rw [hget] at h
  split at h
  · cases h
    exact .inl ⟨‹_›, rfl⟩
  · split at h
    · obtain ⟨m₀, hm₀, rfl⟩ := Option.map_eq_some_iff.1 h
      exact .inr ⟨m₀, hm₀, (if_pos ‹_›).symm⟩
    · exact .inr ⟨m, h, (if_neg ‹_›).symm⟩

/-- The new node is the last one under its parent, and under no other. -/
theorem placesUnder_linked (i : Nat) :
    placesUnder i 0 (d.linked (some p) n).nodes.toList =
      placesUnder i 0 d.nodes.toList ++ if p = i then [d.nodes.size] else [] := by
  have hold : placesUnder i 0 (d.nodes.modify p (·.withChildren [d.nodes.size])).toList =
      placesUnder i 0 d.nodes.toList := placesUnder_congr (map_parent_modify fun _ ↦ rfl)
  show placesUnder i 0 ((d.nodes.modify p (·.withChildren [d.nodes.size])).push _).toList = _
  rw [Array.toList_push, placesUnder_append, hold, Array.length_toList, Array.size_modify]
  refine congrArg _ ?_
  by_cases hpi : p = i
  · simp [placesUnder, hpi]
  · simp [placesUnder, hpi]

/-- **A node under a parent keeps a draft well linked.** -/
theorem WellLinked.below (h : d.WellLinked) (hp : d.IsInterior p) (hn : n.children = #[]) :
    (d.linked (some p) n).WellLinked := by
  have hfresh : placesUnder d.nodes.size 0 d.nodes.toList = [] := by
    refine placesUnder_eq_nil fun m hm heq ↦ ?_
    obtain ⟨i, hi, rfl⟩ := List.mem_iff_getElem.1 hm
    have hget : d.nodes[i]? = some d.nodes.toList[i] := by simp
    rcases Nat.eq_zero_or_pos i with rfl | hpos
    · cases (h.root hget).symm.trans heq
    · obtain ⟨q, hq, hlt⟩ := h.parent hget hpos
      cases hq.symm.trans heq
      rw [Array.length_toList] at hi
      omega
  refine ⟨fun hm ↦ ?_, fun hm hpos ↦ ?_, fun hm ↦ ?_, fun hm ht ↦ ?_⟩
  · rcases getElem?_linked hm with ⟨hi, -⟩ | ⟨m₀, hm₀, rfl⟩
    · have hlt := hp.lt
      omega
    · have hroot := h.root hm₀
      split <;> exact hroot
  · rcases getElem?_linked hm with ⟨rfl, rfl⟩ | ⟨m₀, hm₀, rfl⟩
    · exact ⟨p, rfl, hp.lt⟩
    · have hparent := h.parent hm₀ hpos
      split <;> exact hparent
  · rw [placesUnder_linked]
    rcases getElem?_linked hm with ⟨rfl, rfl⟩ | ⟨m₀, hm₀, rfl⟩
    · rw [hfresh, if_neg (Nat.ne_of_lt hp.lt)]
      exact hn
    · have hchildren := h.children hm₀
      split
      · rw [Node.withChildren, hchildren]
        simp [refs]
      · rw [List.append_nil, hchildren]
  · rcases getElem?_linked hm with ⟨rfl, rfl⟩ | ⟨m₀, hm₀, rfl⟩
    · exact hn
    · split at ht
      · -- The parent is no token, and stays none.
        subst p
        obtain ⟨m, hm, hinterior⟩ := hp
        cases hm₀.symm.trans hm
        exact absurd (show m₀.isToken = true from ht) (by rw [hinterior]; exact Bool.false_ne_true)
      · rw [if_neg ‹_›]
        exact h.token hm₀ ht

/-- **Trivia behind a token keep a draft well linked.** -/
theorem WellLinked.trailed (h : d.WellLinked) (i : Nat) (trivia : Trivia) :
    (d.trailed i trivia).WellLinked := by
  have hold : ∀ {k : Nat} {m : Node}, (d.trailed i trivia).nodes[k]? = some m →
      ∃ m₀, d.nodes[k]? = some m₀ ∧ m.parent = m₀.parent ∧ m.children = m₀.children ∧
        m.isToken = m₀.isToken := by
    intro k m hm
    rw [Draft.trailed, Array.getElem?_modify] at hm
    split at hm
    · obtain ⟨m₀, hm₀, rfl⟩ := Option.map_eq_some_iff.1 hm
      exact ⟨m₀, hm₀, rfl, rfl, rfl⟩
    · exact ⟨m, hm, rfl, rfl, rfl⟩
  refine ⟨fun hm ↦ ?_, fun hm hpos ↦ ?_, fun hm ↦ ?_, fun hm ht ↦ ?_⟩
  all_goals obtain ⟨m₀, hm₀, hparent, hchildren, htoken⟩ := hold hm
  · rw [hparent, h.root hm₀]
  · rw [hparent]
    exact h.parent hm₀ hpos
  · rw [hchildren, h.children hm₀]
    exact congrArg refs (placesUnder_congr
      (map_parent_modify (f := (·.withTrailing [trivia])) fun _ ↦ rfl)).symm
  · rw [hchildren]
    exact h.token hm₀ (htoken ▸ ht)

end

/-- **A request keeps a draft well linked.** -/
theorem WellLinked.effect {d : Draft} {result : Except Fault Answer × Draft} (h : d.WellLinked)
    (he : d.Effect result) : result.2.WellLinked := by
  cases he with
  | refused fault => exact h
  | first n hempty hn => exact wellLinked_first hempty hn
  | below p n hp hn => exact h.below hp hn
  | trailed i trivia => exact h.trailed i trivia
  | built t ht => exact h

/-- **A run keeps a draft well linked.** -/
theorem WellLinked.serve {d : Draft} (h : d.WellLinked) (rs : List Request) :
    (d.serve rs).2.WellLinked := by
  induction rs generalizing d with
  | nil => exact h
  | cons r rs ih => exact ih (h.effect (d.effect_answer r))

end Draft

/-! ### Nodes that stay where they are -/

/-- Whether a node is a later state of another: it may have further children and further trivia
behind it, and is the same in all else. -/
structure Node.GrowsTo (n m : Node) : Prop where
  type : m.type = n.type
  role : m.role = n.role
  parent : m.parent = n.parent
  span : m.span = n.span
  name : m.name = n.name
  text : m.text = n.text
  leading : m.leading = n.leading
  children : n.children.toList <+: m.children.toList
  trailing : n.trailing <+: m.trailing

/-- Whether nodes are a later state of others: each is at the place at which it was. -/
def Node.AllGrowTo (ns ms : Array Node) : Prop :=
  ∀ (i : Nat) (n : Node), ns[i]? = some n → ∃ m : Node, ms[i]? = some m ∧ n.GrowsTo m

namespace Node

theorem GrowsTo.refl (n : Node) : n.GrowsTo n :=
  ⟨rfl, rfl, rfl, rfl, rfl, rfl, rfl, List.prefix_refl _, List.prefix_refl _⟩

theorem GrowsTo.trans {n m k : Node} (h : n.GrowsTo m) (h' : m.GrowsTo k) : n.GrowsTo k :=
  ⟨h'.type.trans h.type, h'.role.trans h.role, h'.parent.trans h.parent, h'.span.trans h.span,
    h'.name.trans h.name, h'.text.trans h.text, h'.leading.trans h.leading,
    h.children.trans h'.children, h.trailing.trans h'.trailing⟩

theorem growsTo_withChildren (n : Node) (is : List Nat) : n.GrowsTo (n.withChildren is) where
  __ := GrowsTo.refl n
  children := by
    rw [withChildren, Array.toList_append]
    exact List.prefix_append _ _

theorem growsTo_withTrailing (n : Node) (ts : List Trivia) : n.GrowsTo (n.withTrailing ts) where
  __ := GrowsTo.refl n
  trailing := List.prefix_append _ _

theorem AllGrowTo.refl (ns : Array Node) : AllGrowTo ns ns :=
  fun _ n h ↦ ⟨n, h, .refl n⟩

theorem AllGrowTo.trans {ns ms ks : Array Node} (h : AllGrowTo ns ms) (h' : AllGrowTo ms ks) :
    AllGrowTo ns ks := by
  intro i n hn
  obtain ⟨m, hm, hnm⟩ := h i n hn
  obtain ⟨k, hk, hmk⟩ := h' i m hm
  exact ⟨k, hk, hnm.trans hmk⟩

/-- Nodes grow if one of them does. -/
theorem allGrowTo_modify {f : Node → Node} (hf : ∀ n : Node, n.GrowsTo (f n)) (ns : Array Node)
    (i : Nat) : AllGrowTo ns (ns.modify i f) := by
  intro k n hn
  rw [Array.getElem?_modify, hn]
  split
  · exact ⟨f n, rfl, hf n⟩
  · exact ⟨n, rfl, .refl n⟩

/-- A node that is added behind all others leaves them where they are. -/
theorem allGrowTo_push (ns : Array Node) (m : Node) : AllGrowTo ns (ns.push m) := by
  intro i n hn
  have hi := (Array.getElem?_eq_some_iff.1 hn).1
  refine ⟨n, ?_, .refl n⟩
  rw [Array.getElem?_push, if_neg (Nat.ne_of_lt hi), hn]

end Node

namespace Draft

open Node (AllGrowTo)

/-- **A request moves nothing** and takes nothing back. -/
theorem allGrowTo_effect {d : Draft} {result : Except Fault Answer × Draft}
    (he : d.Effect result) : AllGrowTo d.nodes result.2.nodes := by
  cases he with
  | refused fault => exact .refl _
  | first n hempty hn => exact Node.allGrowTo_push d.nodes _
  | below p n hp hn =>
    have hparent := Node.allGrowTo_modify
      (fun n ↦ Node.growsTo_withChildren n [d.nodes.size]) d.nodes p
    exact hparent.trans (Node.allGrowTo_push _ _)
  | trailed i trivia =>
    exact Node.allGrowTo_modify (fun n ↦ Node.growsTo_withTrailing n [trivia]) d.nodes i
  | built t ht => exact .refl _

end Draft

/-! ### Trees that are built -/

/-- Whether parents and children of a tree agree: the root alone has no parent, all others have one
that stands before them, a node lists as its children the nodes whose parent it is, each once and in
their order, and tokens have no children. -/
structure Tree.WellLinked (t : Tree) : Prop where
  root : ∀ i, t.parent? i = none ↔ i = t.root
  parent : ∀ i p, t.parent? i = some p → p < i
  children : ∀ i, ∃ cs : List (Fin t.size),
    (t.node i).children.toList = cs.map (fun c : Fin t.size ↦ (c.val : Int)) ∧
      cs.Pairwise (· < ·) ∧ ∀ c, c ∈ cs ↔ t.parent? c = some i
  token : ∀ i, (t.node i).isToken = true → (t.node i).children = #[]

namespace Draft

open Node (AllGrowTo)

/-- The nodes of a tree are those of the draft from which it was built. -/
theorem nodes_of_build {d : Draft} {t : Tree} (h : d.build = .ok t) : t.nodes = d.nodes := by
  have hparent : ∀ p : Option Nat, (p.map Int.ofNat).map Int.toNat = p := by
    intro p
    cases p <;> rfl
  rw [build] at h
  split at h
  · cases h
  · have hrows := Outcome.mapError_eq_ok_iff.1 h
    unfold Tree.ofRows at hrows
    split at hrows
    · split at hrows
      · cases hrows
      · cases hrows
        refine Array.ext (by simp [rows]) fun i hi _ ↦ ?_
        simp only [rows, Array.getElem_map, Array.getElem_mapIdx, Tree.Row.toNode, hparent]
    · cases hrows

/-- **A well linked draft can be built** once it has a node. -/
theorem WellLinked.exists_build_iff {d : Draft} (h : d.WellLinked) :
    (∃ t, d.build = .ok t) ↔ 0 < d.nodes.size := by
  constructor
  · rintro ⟨t, ht⟩
    exact nodes_of_build ht ▸ t.nonempty
  · intro hpos
    have hget : ∀ {i : Nat} (hi : i < d.nodes.size), d.nodes[i]? = some d.nodes[i] := fun hi ↦
      Array.getElem?_eq_getElem hi
    exact ⟨_, build_eq ⟨d.nodes, d.language, hpos, h.root (hget hpos), fun i hi hi0 ↦
      h.parent (hget hi) hi0⟩⟩

/-- **A tree that is built from a well linked draft is well linked.** -/
theorem WellLinked.build {d : Draft} {t : Tree} (h : d.WellLinked) (ht : d.build = .ok t) :
    t.WellLinked := by
  have hget : ∀ i : Fin t.size, d.nodes[i.val]? = some (t.node i) := by
    intro i
    rw [← nodes_of_build ht]
    exact Array.getElem?_eq_getElem i.isLt
  refine ⟨fun i ↦ ⟨fun hnone ↦ ?_, ?_⟩, fun i p hp ↦ t.parent?_lt hp, fun i ↦ ?_, fun i ↦ ?_⟩
  · by_contra hne
    have hpos : 0 < i.val := Nat.pos_of_ne_zero fun h0 ↦ hne (Fin.ext h0)
    obtain ⟨p, hp, -⟩ := h.parent (hget i) hpos
    rw [← t.val_parent? i, hnone] at hp
    cases hp
  · rintro rfl
    exact t.parent?_root
  · refine ⟨t.below i, ?_, ?_, fun c ↦ Tree.mem_below_iff⟩
    · rw [h.children (hget i), ← nodes_of_build ht, ← Tree.map_val_below, refs, List.map_map]
      rfl
    · exact (List.pairwise_lt_finRange t.size).sublist List.filter_sublist
  · exact h.token (hget i)

/-- The places that were answered, in order. -/
def placesOf (answers : List (Except Fault Answer)) : List Nat :=
  answers.filterMap fun
    | .ok (.place i) => some i
    | _ => none

/-- A request gives at most the next place, and gives it if a node was added. -/
theorem placesOf_effect {d : Draft} {result : Except Fault Answer × Draft} (he : d.Effect result) :
    ∃ k, placesOf [result.1] = List.range' d.nodes.size k ∧
      result.2.nodes.size = d.nodes.size + k := by
  cases he with
  | refused fault => exact ⟨0, rfl, rfl⟩
  | first n hempty hn => exact ⟨1, rfl, Array.size_push _⟩
  | below p n hp hn =>
    refine ⟨1, rfl, ?_⟩
    show ((d.nodes.modify p _).push _).size = _
    rw [Array.size_push, Array.size_modify]
  | trailed i trivia => exact ⟨0, rfl, Array.size_modify⟩
  | built t ht => exact ⟨0, rfl, rfl⟩

/-- **Places are given one after the other**, without gaps. -/
theorem placesOf_serve (d : Draft) (rs : List Request) :
    ∃ k, placesOf (d.serve rs).1 = List.range' d.nodes.size k ∧
      (d.serve rs).2.nodes.size = d.nodes.size + k := by
  induction rs generalizing d with
  | nil => exact ⟨0, rfl, rfl⟩
  | cons r rs ih =>
    obtain ⟨k, hk, hsize⟩ := placesOf_effect (d.effect_answer r)
    obtain ⟨l, hl, hsize'⟩ := ih (d.answer r).2
    refine ⟨k + l, ?_, ?_⟩
    · have hsplit : placesOf (d.serve (r :: rs)).1 =
          placesOf [(d.answer r).1] ++ placesOf ((d.answer r).2.serve rs).1 := by
        rw [serve, ← List.singleton_append]
        exact List.filterMap_append
      rw [hsplit, hk, hl, hsize, List.range'_append_1]
    · rw [serve, hsize', hsize, Nat.add_assoc]

/-- Trees that are answered are well linked and hold the nodes of the draft at the start. -/
theorem tree_of_mem_serve {d : Draft} (h : d.WellLinked) {rs : List Request} {t : Tree}
    (ht : .ok (.tree t) ∈ (d.serve rs).1) : t.WellLinked ∧ AllGrowTo d.nodes t.nodes := by
  induction rs generalizing d with
  | nil => exact absurd ht List.not_mem_nil
  | cons r rs ih =>
    have he := d.effect_answer r
    rcases List.mem_cons.1 ht with heq | ht
    · generalize d.answer r = result at he heq
      cases he with
      | built s hs =>
        cases heq
        exact ⟨h.build hs, nodes_of_build hs ▸ .refl _⟩
      | _ => cases heq
    · obtain ⟨hlinked, hgrow⟩ := ih (h.effect he) ht
      exact ⟨hlinked, (allGrowTo_effect he).trans hgrow⟩

/-- Of two trees that are answered, the later is a later state of the earlier. -/
theorem pairwise_serve {d : Draft} (h : d.WellLinked) (rs : List Request) :
    (d.serve rs).1.Pairwise fun a b ↦ ∀ s t : Tree, a = .ok (.tree s) → b = .ok (.tree t) →
      AllGrowTo s.nodes t.nodes := by
  induction rs generalizing d with
  | nil => exact .nil
  | cons r rs ih =>
    have he := d.effect_answer r
    refine List.pairwise_cons.2 ⟨fun b hb s t hs ht ↦ ?_, ih (h.effect he)⟩
    subst ht
    have hgrow := (tree_of_mem_serve (h.effect he) hb).2
    generalize d.answer r = result at he hs hgrow
    cases he with
    | built u hu =>
      cases hs
      rwa [nodes_of_build hu]
    | _ => cases hs

/-- **Whatever is asked of a draft, links agree and nothing moves.** After any requests to an empty
draft: a request that is refused leaves the draft as it is; a tree can be built just if a node has
been added, and building changes nothing; nodes have got the places from `0` on, one after the
other. The trees that were built on the way are well linked, and a later one has each node of an
earlier one at its place, the same but for further children and further trivia behind it. -/
theorem serve_keeps_links (language : Option Language) (requests : List Request) :
    let served := (empty language).serve requests
    (∀ r fault e, served.2.answer r = (.error fault, e) → e = served.2) ∧
      ((∃ t, served.2.build = .ok t) ↔ placesOf served.1 ≠ []) ∧
      (served.2.answer .build).2 = served.2 ∧
      placesOf served.1 = List.range served.2.nodes.size ∧
      (∀ t, .ok (.tree t) ∈ served.1 → t.WellLinked) ∧
      served.1.Pairwise fun a b ↦ ∀ s t : Tree, a = .ok (.tree s) → b = .ok (.tree t) →
        AllGrowTo s.nodes t.nodes := by
  intro served
  have hempty := wellLinked_empty language
  have hplaces : placesOf served.1 = List.range served.2.nodes.size := by
    obtain ⟨k, hk, hsize⟩ := placesOf_serve (empty language) requests
    have hzero : (empty language).nodes.size = 0 := rfl
    rw [hzero, Nat.zero_add] at hsize
    rw [hk, hzero, hsize, List.range_eq_range']
  refine ⟨fun r fault e h ↦ ?_, ?_, ?_, hplaces, fun t ht ↦ (tree_of_mem_serve hempty ht).1,
    pairwise_serve hempty requests⟩
  · have he := served.2.effect_answer r
    rw [h] at he
    cases he
    rfl
  · rw [(hempty.serve requests).exists_build_iff, hplaces, Nat.pos_iff_ne_zero, ne_eq, ne_eq,
      List.range_eq_nil]
  · rw [answer, Request.steps_eq, InPlace.runOn_atOnce, Request.operation]
    cases served.2.build <;> rfl

end Draft

end CommentScope
