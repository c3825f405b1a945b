import CommentScope.Tree.Basic

/-!
# Drafts of trees

A `Draft` accumulates nodes one at a time and is frozen into a `Tree` by `Draft.build`. A node is
given its parent when it is added, and joins the end of that parent's children; parents are nodes
that are already there and are not tokens. Building does not use a draft up: more nodes may be added
and the draft built again.

Every operation either yields the next draft or a fault, so a refused addition leaves the draft as
it was.
-/

namespace CommentScope

/-- A tree under construction. -/
structure Draft where
  language : Option Language
  nodes : Array Node

namespace Draft

/-- Why a draft refuses an operation. -/
inductive Fault where
  | secondRoot
  | unknownParent (parent : Int)
  | tokenParent
  | noSuchNode
  | notToken (index : Int)
  | nothingToBuild
  | badTree (fault : Tree.Fault)
  deriving DecidableEq

/-- The wording of a fault; a node that is not there is reported without words. -/
def Fault.message : Fault → Option String
  | .secondRoot => some "tree already has a root"
  | .unknownParent parent => some s!"unknown parent index {parent}"
  | .tokenParent => some "tokens cannot have children"
  | .noSuchNode => none
  | .notToken index => some s!"node {index} is not a token"
  | .nothingToBuild => some "cannot build an empty tree"
  | .badTree fault => some fault.message

/-- The draft without nodes. -/
def empty (language : Option Language) : Draft := ⟨language, #[]⟩

/-- The span of a node that was given none. -/
def noSpan : Span := .emptyAt 0 0

/-- The position at which a parent index finds a node that may have children. -/
def parentOf (d : Draft) (parent : Int) : Except Fault Nat :=
  if 0 ≤ parent then
    match d.nodes[parent.toNat]? with
    | none => .error (.unknownParent parent)
    | some n => if n.isToken then .error .tokenParent else .ok parent.toNat
  else .error (.unknownParent parent)

/-- Appends a node under a parent, or as the root of an empty draft. -/
def push (d : Draft) (parent : Option Int) (n : Node) : Except Fault (Nat × Draft) :=
  let i := d.nodes.size
  match parent with
  | none =>
    if i = 0 then .ok (i, { d with nodes := d.nodes.push { n with parent := none } })
    else .error .secondRoot
  | some p => do
    let p ← d.parentOf p
    let nodes := d.nodes.modify p fun m ↦ { m with children := m.children.push i }
    pure (i, { d with nodes := nodes.push { n with parent := some p } })

/-- **A node that is added stands behind all others, and is one more.** -/
theorem size_push {d d' : Draft} {parent : Option Int} {n : Node} {i : Nat}
    (h : d.push parent n = .ok (i, d')) :
    i = d.nodes.size ∧ d'.nodes.size = d.nodes.size + 1 := by
  unfold push at h
  cases parent with
  | none =>
    dsimp only at h
    split at h
    · cases h
      simp
    · cases h
  | some p =>
    cases hp : d.parentOf p with
    | error fault => simp [hp, bind, Except.bind] at h
    | ok q =>
      simp only [hp, bind, Except.bind, pure, Except.pure, Except.ok.injEq, Prod.mk.injEq] at h
      obtain ⟨rfl, rfl⟩ := h
      simp

/-- Adds an interior node and says at which position it stands. -/
def addNode (d : Draft) (type : String) (parent : Option Int) (role : Role) (name : Option String)
    (span : Span) : Except Fault (Nat × Draft) :=
  d.push parent {
    type, role, parent := none, children := #[], span, name, text := none
    leading := [], trailing := [] }

/-- The type of a token: its text, unless it is given a type that is not empty. -/
def tokenType (type : Option String) (text : String) : String :=
  match type with
  | some t => if t.isEmpty then text else t
  | none => text

/-- Adds a token and says at which position it stands. A token that is given no type has its text
for one. -/
def addToken (d : Draft) (text : String) (parent : Option Int) (type : Option String) (span : Span)
    (leading trailing : List Trivia) : Except Fault (Nat × Draft) :=
  d.push parent {
    type := tokenType type text, role := .nothing, parent := none, children := #[], span
    name := none, text := some text, leading, trailing }

/-- Adds trivia behind a token; a negative index counts from the end. -/
def addTrailing (d : Draft) (index : Int) (trivia : Trivia) : Except Fault Draft :=
  let position := if index < 0 then index + d.nodes.size else index
  if 0 ≤ position then
    match d.nodes[position.toNat]? with
    | none => .error .noSuchNode
    | some n =>
      if n.isToken then
        .ok { d with nodes := d.nodes.modify position.toNat fun m ↦
          { m with trailing := m.trailing ++ [trivia] } }
      else .error (.notToken index)
  else .error .noSuchNode

/-- The rows of a draft: each node at its own position. -/
def rows (d : Draft) : Array Tree.Row :=
  d.nodes.mapIdx fun i n ↦ { index := i, parent := n.parent.map Int.ofNat, node := n }

/-- The tree drafted so far. -/
def build (d : Draft) : Except Fault Tree :=
  if d.nodes.isEmpty then .error .nothingToBuild
  else (Tree.ofRows d.language d.rows).mapError .badTree

end Draft

end CommentScope
