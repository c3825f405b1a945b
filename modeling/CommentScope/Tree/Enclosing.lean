import CommentScope.Tree.Basic

/-!
# What encloses a node

The ancestors of a node run from its parent up to and including the root. The enclosing declaration
of a kind is the first ancestor of that kind; a node never encloses itself. Since parents stand
before their children the climb ends, whatever the child lists say.
-/

namespace CommentScope.Tree

variable (t : Tree)

/-- The chain from the parent of a node up to the root. -/
def ancestors (i : Fin t.size) : List (Fin t.size) :=
  match h : t.parent? i with
  | none => []
  | some p =>
    have : p < i := t.parent?_lt h
    p :: ancestors p
termination_by i.val

/-- The nearest ancestor that satisfies a predicate, which may look at the position of a node. -/
def nearest? (i : Fin t.size) (p : Fin t.size → Bool) : Option (Fin t.size) :=
  (t.ancestors i).find? p

/-- The nearest ancestor that satisfies a predicate on nodes. -/
def enclosing? (i : Fin t.size) (p : Node → Bool) : Option (Fin t.size) :=
  (t.ancestors i).find? fun a ↦ p (t.node a)

theorem enclosing?_eq_nearest? (i : Fin t.size) (p : Node → Bool) :
    t.enclosing? i p = t.nearest? i fun a ↦ p (t.node a) := rfl

/-- The nearest ancestor that is a member and neither a type nor a namespace. -/
def enclosingMember? (i : Fin t.size) : Option (Fin t.size) :=
  t.enclosing? i fun n ↦ n.role.isMemberOnly

/-- The nearest ancestor that is a type. -/
def enclosingType? (i : Fin t.size) : Option (Fin t.size) :=
  t.enclosing? i fun n ↦ n.role.isType

/-- The nearest ancestor that is a namespace. -/
def enclosingNamespace? (i : Fin t.size) : Option (Fin t.size) :=
  t.enclosing? i fun n ↦ n.role.isNamespace

end CommentScope.Tree
