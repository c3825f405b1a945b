import CommentScope.Concrete
import CommentScope.Lexeme

/-!
# Outlines

To tell what encloses a comment it is enough to know where the declarations of a source start and
end and what they are called. An `Outline` is a concrete tree under construction that knows no more
than that: below its root there are the nodes of declarations, and every other piece of source is a
leaf of the innermost of them.

It is grown from one lexeme after the other. The nodes whose end has not been met stand on a stack,
each with the phase its language is in; comments wait until the next lexeme shows whether the node
before them has ended. A node that turns out not to declare anything is spliced into the node around
it.
-/

namespace CommentScope

/-- A node whose end has not been met. Its children are in reverse order; a node without type
declares nothing. -/
structure Outline.Open (φ : Type) where
  phase : φ
  type : Option String
  name : Option Nat
  below : List Concrete

/-- A tree under construction: the open nodes, the innermost first, above the root; and the comments
behind the last lexeme, in reverse order. -/
structure Outline (φ : Type) where
  inner : List (Outline.Open φ)
  root : Outline.Open φ
  waiting : List Concrete

namespace Outline

variable {φ : Type}

/-- The outline of no source at all. -/
def start (phase : φ) : Outline φ := ⟨[], ⟨phase, none, none, []⟩, []⟩

/-- The innermost open node. -/
def top (o : Outline φ) : Open φ := o.inner.headD o.root

/-- The phase of the innermost open node. -/
def phase (o : Outline φ) : φ := o.top.phase

/-- Changes the innermost open node. -/
def modifyTop (o : Outline φ) (f : Open φ → Open φ) : Outline φ :=
  match o.inner with
  | [] => { o with root := f o.root }
  | n :: ns => { o with inner := f n :: ns }

/-- Puts the innermost open node into another phase. -/
def become (o : Outline φ) (phase : φ) : Outline φ := o.modifyTop fun n ↦ { n with phase }

/-- Says what the innermost open node declares. -/
def classify (o : Outline φ) (type : String) : Outline φ :=
  o.modifyTop fun n ↦ { n with type := some type }

/-- Makes an earlier child of the innermost open node its name. -/
def nameAt (o : Outline φ) (name : Option Nat) : Outline φ := o.modifyTop fun n ↦ { n with name }

/-- The place of a cursor as a point. -/
def point (p : Cursor) : Point := ⟨p.row, p.column⟩

/-- What the leaf for a lexeme is called. -/
def leafType : Lexeme.Kind → String
  | .word => "identifier"
  | .sign => "sign"
  | .literal => "literal"
  | .directive => "directive"
  | .comment type => type
  | .lineEnd => "line_end"
  | .indent => "indent"
  | .dedent => "dedent"

/-- The leaf for a lexeme. -/
def leaf (l : Lexeme) : Concrete :=
  .mk {
    type := leafType l.kind, startByte := l.start.offset, endByte := l.stop.offset
    start := point l.start, stop := point l.stop, missing := false, nameChild := none } []

/-- Lets the waiting comments follow the children of the innermost open node. -/
def settle (o : Outline φ) : Outline φ :=
  { o.modifyTop fun n ↦ { n with below := o.waiting ++ n.below } with waiting := [] }

/-- Makes the next child of the innermost open node its name. -/
def nameNext (o : Outline φ) : Outline φ :=
  o.settle.modifyTop fun n ↦ { n with name := some n.below.length }

/-- Adds a lexeme to the innermost open node, behind the waiting comments. -/
def add (o : Outline φ) (l : Lexeme) : Outline φ :=
  o.settle.modifyTop fun n ↦ { n with below := leaf l :: n.below }

/-- Lets a comment wait. -/
def wait (o : Outline φ) (l : Lexeme) : Outline φ := { o with waiting := leaf l :: o.waiting }

/-- Opens a node behind the waiting comments. -/
def enter (o : Outline φ) (phase : φ) : Outline φ :=
  let o := o.settle
  { o with inner := ⟨phase, none, none, []⟩ :: o.inner }

/-- The tree of an open node that declares something, from its first child to its last. -/
def Open.tree (n : Open φ) (type : String) : Concrete :=
  let children := n.below.reverse
  let first := (children.head?.map Concrete.label).getD default
  let last := (n.below.head?.map Concrete.label).getD default
  .mk {
    type, startByte := first.startByte, endByte := last.endByte
    start := first.start, stop := last.stop, missing := false, nameChild := n.name } children

/-- Closes the innermost open node; the root stays open. -/
def leave (o : Outline φ) : Outline φ :=
  match o.inner with
  | [] => o
  | n :: ns =>
    let outer : Outline φ := { o with inner := ns }
    outer.modifyTop fun m ↦
      match n.type with
      | none => { m with below := n.below ++ m.below }
      | some type => { m with below := n.tree type :: m.below }

/-- Closes so many of the innermost open nodes. -/
def leaveTimes (o : Outline φ) : Nat → Outline φ
  | 0 => o
  | n + 1 => o.leave.leaveTimes n

/-- Closes every open node. -/
def leaveAll (o : Outline φ) : Outline φ := o.leaveTimes o.inner.length

/-- The concrete tree of a whole source, whose root has the given type. -/
def finish (o : Outline φ) (type : String) (stop : Cursor) : Concrete :=
  let o := o.leaveAll.settle
  .mk {
    type, startByte := 0, endByte := stop.offset, start := ⟨0, 0⟩, stop := point stop
    missing := false, nameChild := none } o.root.below.reverse

/-- The concrete tree of the lexemes of a source. `feed` takes in a lexeme that is neither a comment
nor a directive. -/
def ofLexemes (feed : Outline φ → Lexeme → Outline φ) (phase : φ) (type : String) (stop : Cursor)
    (ls : List Lexeme) : Concrete :=
  let o := ls.foldl (fun o l ↦
    match l.kind with
    | .comment _ | .directive => o.wait l
    | _ => feed o l) (start phase)
  o.finish type stop

end Outline

end CommentScope
