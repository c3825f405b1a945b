import CommentScope.Markers
import CommentScope.Tree.Enclosing
import CommentScope.Tree.Walk

/-!
# Wanted comments and their scopes

A `Finding` is a wanted comment of a tree: its text, its line, and the nodes that enclose it as
member, type and namespace. It refers to nodes by index and is only meaningful together with its
tree; `Tree.describe?` turns the indices into names.

Findings can be collected at once (`Tree.findings?`) or taken from the start (`Tree.firstFindings?`).
Collecting fails if the walk of the tree meets a child that does not exist; taking from the start
fails only if more is asked for than there is before that child.
-/

namespace CommentScope

/-- What is known of the member, the type and the namespace around a comment. -/
structure Scopes (α : Type) where
  member : Option α
  type : Option α
  space : Option α
  deriving DecidableEq

/-- A wanted comment, with the indices of the nodes around it. -/
structure Finding where
  content : String
  line : Nat
  scopes : Scopes Int
  deriving DecidableEq

/-- A wanted comment, with the names of the declarations around it. -/
structure Described where
  content : String
  line : Nat
  scopes : Scopes String
  deriving DecidableEq

/-- Why a tree cannot be searched. -/
inductive Tree.SearchFault where
  | noTree
  | noAnchor
  | noMatcher
  | noListener
  | negativeLine
  | noSuchNode
  deriving DecidableEq

/-- The wording of a fault; a node that is not there is reported without words. -/
def Tree.SearchFault.message : Tree.SearchFault → Option String
  | .noTree => some "tree must not be None"
  | .noAnchor => some "anchor must not be None"
  | .noMatcher => some "matcher must be a callable taking the comment text"
  | .noListener => some "comment_located must not be None"
  | .negativeLine => some "line must be >= 0"
  | .noSuchNode => none

/-- A finding with a line that may turn out negative, which is refused. -/
def Finding.of? (content : String) (line : Int) (scopes : Scopes Int) :
    Except Tree.SearchFault Finding :=
  if line < 0 then .error .negativeLine else .ok ⟨content, line.toNat, scopes⟩

namespace Tree

variable (t : Tree)

/-- The nodes around a token. -/
def scopesAt (i : Fin t.size) : Scopes Int where
  member := (t.enclosingMember? i).map fun a ↦ (a.val : Int)
  type := (t.enclosingType? i).map fun a ↦ (a.val : Int)
  space := (t.enclosingNamespace? i).map fun a ↦ (a.val : Int)

/-- The finding for a comment at a token. -/
def findingAt (comment : Trivia) (i : Fin t.size) : Finding :=
  ⟨comment.text, comment.span.startLine, t.scopesAt i⟩

/-- The findings among events, in order. -/
def findingsOf (accepts : Matcher) (events : List t.Event) : List Finding :=
  ((t.commentsOf events).filter fun c ↦ accepts c.1.text).map fun c ↦ t.findingAt c.1 c.2

/-- All findings of a tree. -/
def findings? (accepts : Matcher) : Except SearchFault (List Finding) :=
  let w := t.walk true
  match w.ending with
  | .finished => .ok (t.findingsOf accepts w.events)
  | .brokenLink | .endless => .error .noSuchNode

/-- The first `n` findings of a tree, or all of them if there are fewer. -/
def firstFindings? (accepts : Matcher) (n : Nat) : Except SearchFault (List Finding) :=
  let w := t.walkRounds true (n + 1)
  let found := t.findingsOf accepts w.events
  if n ≤ found.length ∨ w.ending = .finished then .ok (found.take n) else .error .noSuchNode

/-- How constructors are called in reports. -/
def constructorName : String := ".ctor"

/-- How members without a name are called in reports. -/
def unknownName : String := "?"

/-- The types of the nodes that declare constructors. -/
def constructorTypes : List String := ["constructor_declaration", "compact_constructor_declaration"]

/-- How a member is called in reports. -/
def memberName (n : Node) : String :=
  if constructorTypes.contains n.type then constructorName
  else
    match n.name with
    | none => unknownName
    | some name => if name.isEmpty then unknownName else name

/-- What a function says of the node at an index, if there is an index. -/
def readAt {α : Type} (f : Node → Option α) : Option Int → Except SearchFault (Option α)
  | none => .ok none
  | some i =>
    match t.resolve? i with
    | none => .error .noSuchNode
    | some i => .ok (f (t.node i))

/-- A finding with names in place of indices. -/
def describe? (f : Finding) : Except SearchFault Described := do
  let member ← t.readAt (fun n ↦ some (memberName n)) f.scopes.member
  let type ← t.readAt Node.name f.scopes.type
  let space ← t.readAt Node.name f.scopes.space
  pure ⟨f.content, f.line, member, type, space⟩

end Tree

end CommentScope
