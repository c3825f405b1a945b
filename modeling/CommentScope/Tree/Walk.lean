import CommentScope.Tree.Basic

/-!
# Walking a tree

A walk visits a tree in source order and reports what it passes: nodes, tokens, and the trivia of
each token, before it or after it. It is run on an explicit stack of child references, so that the
depth of a tree is no limit.

Child lists are unchecked, so a walk can end in three ways. It may finish; it may meet a child that
does not exist; and it may go round in a circle, which is known as soon as a chain of children is
longer than there are nodes. Each entry of the stack carries the number of levels still allowed
below it, and `Walk.weight` shows that the stack empties.
-/

namespace CommentScope

/-- What a walk of `t` passes. -/
inductive Tree.Event (t : Tree) where
  | node (i : Fin t.size)
  | token (i : Fin t.size)
  | trivia (token : Fin t.size) (item : Trivia)

/-- How a walk ends. -/
inductive Walk.Ending where
  | finished
  | brokenLink
  | endless
  deriving DecidableEq

/-- What a walk passed and how it ended. -/
structure Walk (t : Tree) where
  events : List t.Event
  ending : Walk.Ending

namespace Tree

variable (t : Tree)

/-- The events of trivia at a token: with everything nested inside, or only the outermost item. -/
def triviaEvents (descend : Bool) (i : Fin t.size) (item : Trivia) : List t.Event :=
  if descend then item.items.map (.trivia i) else [.trivia i item]

/-- The events of a node without those of its children: leading trivia come before a token and
trailing trivia after it. -/
def visit (descend : Bool) (i : Fin t.size) : List t.Event :=
  let n := t.node i
  if n.isToken then
    n.leading.flatMap (t.triviaEvents descend i) ++ .token i ::
      n.trailing.flatMap (t.triviaEvents descend i)
  else [.node i]

/-- The greatest number of children of one node. -/
def width : Nat := t.nodes.foldl (fun w n ↦ max w n.children.size) 0

/-- Bounds the visits that entries of a stack can lead to. -/
def stackWeight : List (Nat × Int) → Nat
  | [] => 0
  | e :: stack => Nat.pow (t.width + 1) e.1 + stackWeight stack

theorem stackWeight_append (stack more : List (Nat × Int)) :
    t.stackWeight (stack ++ more) = t.stackWeight stack + t.stackWeight more := by
  induction stack with
  | nil => simp [stackWeight]
  | cons e stack ih => rw [List.cons_append, stackWeight, stackWeight, ih, Nat.add_assoc]

theorem stackWeight_level (depth : Nat) (refs : List Int) :
    t.stackWeight (refs.map (depth, ·)) = refs.length * Nat.pow (t.width + 1) depth := by
  induction refs with
  | nil => simp [stackWeight]
  | cons ref refs ih =>
    rw [List.map_cons, stackWeight, ih, List.length_cons, Nat.add_mul, Nat.one_mul, Nat.add_comm]

theorem size_children_le_width (i : Fin t.size) : (t.node i).children.size ≤ t.width := by
  have key : ∀ (l : List Node) (w : Nat), w ≤ l.foldl (fun w n ↦ max w n.children.size) w ∧
      ∀ n ∈ l, n.children.size ≤ l.foldl (fun w n ↦ max w n.children.size) w := by
    intro l
    induction l with
    | nil => simp
    | cons a l ih =>
      intro w
      have h := ih (max w a.children.size)
      simp only [List.foldl_cons, List.mem_cons, forall_eq_or_imp]
      exact ⟨by omega, by omega, h.2⟩
  have h := (key t.nodes.toList 0).2 (t.node i) (by simp [node])
  simpa [width] using h

theorem stackWeight_children_lt (i : Fin t.size) (depth : Nat) (stack : List (Nat × Int))
    (ref : Int) :
    t.stackWeight ((t.node i).children.toList.map (depth, ·) ++ stack) <
      t.stackWeight ((depth + 1, ref) :: stack) := by
  have hw := t.size_children_le_width i
  have hpow : Nat.pow (t.width + 1) (depth + 1) =
      Nat.pow (t.width + 1) depth * (t.width + 1) := rfl
  have hpos : 0 < Nat.pow (t.width + 1) depth := Nat.pow_pos (Nat.succ_pos _)
  -- At most `width` entries of one level less take the place of one entry.
  have hle := Nat.mul_le_mul_right (Nat.pow (t.width + 1) depth) hw
  rw [stackWeight_append, stackWeight_level, stackWeight, hpow, Nat.mul_add, Nat.mul_one,
    Nat.mul_comm _ t.width, Array.length_toList]
  omega

/-- Runs a stack of child references, each with the number of levels allowed from it on, and adds
what it passes to `seen`. -/
def runStack (descend : Bool) (seen : Array t.Event) : List (Nat × Int) → Walk t
  | [] => ⟨seen.toList, .finished⟩
  | (depth, ref) :: stack =>
    match t.resolve? ref, depth with
    | none, _ => ⟨seen.toList, .brokenLink⟩
    -- A chain of more children than there are nodes meets a node twice.
    | some _, 0 => ⟨seen.toList, .endless⟩
    | some i, depth + 1 =>
      runStack descend (seen ++ (t.visit descend i).toArray)
        ((t.node i).children.toList.map (depth, ·) ++ stack)
termination_by stack => t.stackWeight stack
decreasing_by exact t.stackWeight_children_lt i depth stack ref

/-- One step of a walk that has levels left and meets a node. -/
theorem runStack_cons {t : Tree} {ref : Int} {i : Fin t.size} (h : t.resolve? ref = some i)
    (descend : Bool) (depth : Nat) (seen : Array t.Event) (stack : List (Nat × Int)) :
    t.runStack descend seen ((depth + 1, ref) :: stack) =
      t.runStack descend (seen ++ (t.visit descend i).toArray)
        ((t.node i).children.toList.map (depth, ·) ++ stack) := by
  rw [runStack.eq_def]
  simp only [h]

/-- A walk ends at a reference that names no node. -/
theorem runStack_missing {t : Tree} {ref : Int} (h : t.resolve? ref = none) (descend : Bool)
    (depth : Nat) (seen : Array t.Event) (stack : List (Nat × Int)) :
    t.runStack descend seen ((depth, ref) :: stack) = ⟨seen.toList, .brokenLink⟩ := by
  rw [runStack.eq_def]
  simp only [h]

/-- The walk of a tree that may go `rounds` times as deep as there are nodes. One round is enough
for every walk that ends. -/
def walkRounds (descend : Bool) (rounds : Nat) : Walk t :=
  t.runStack descend #[] [(rounds * t.size, 0)]

/-- The walk of a tree in source order. -/
def walk (descend : Bool) : Walk t := t.walkRounds descend 1

/-- The tokens among events. -/
def tokensOf (events : List t.Event) : List (Fin t.size) :=
  events.filterMap fun
    | .token i => some i
    | _ => none

/-- The comments among events, each with its token. -/
def commentsOf (events : List t.Event) : List (Trivia × Fin t.size) :=
  events.filterMap fun
    | .trivia i item => if item.isComment then some (item, i) else none
    | _ => none

end Tree

end CommentScope
