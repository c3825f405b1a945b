import CommentScope.Tree.Walk

/-!
# What is told of a walk

What uses a tree need not know the events of a walk. It may ask for the tokens, which are searched
for without regard to trivia (`Tree.tokens`); it may take each node together with the trivia that is
passed there, if any (`Tree.Event.pair`); or it may be a `Visitor`, with a hook for nodes, one for
tokens and one for trivia. A hook that is not given does nothing.
-/

namespace CommentScope.Tree

/-! ### Tokens -/

/-- The tokens that a search has met and how it ended. -/
structure TokenSearch (t : Tree) where
  tokens : List (Fin t.size)
  ending : Walk.Ending

variable (t : Tree)

/-- Searches a stack of child references for tokens, each reference with the number of levels allowed
from it on, and adds the tokens that it meets to `seen`. -/
def searchStack (seen : Array (Fin t.size)) : List (Nat × Int) → TokenSearch t
  | [] => ⟨seen.toList, .finished⟩
  | (depth, ref) :: stack =>
    match t.resolve? ref, depth with
    | none, _ => ⟨seen.toList, .brokenLink⟩
    | some _, 0 => ⟨seen.toList, .endless⟩
    | some i, depth + 1 =>
      searchStack (if (t.node i).isToken then seen.push i else seen)
        ((t.node i).children.toList.map (depth, ·) ++ stack)
termination_by stack => t.stackWeight stack
decreasing_by exact t.stackWeight_children_lt i depth stack ref

/-- The tokens of a tree in source order. -/
def tokens : TokenSearch t := t.searchStack #[] [(t.size, 0)]

variable {t}

/-! ### Nodes and visitors -/

/-- The node at which something is passed, and the trivia if it is trivia that is passed. -/
def Event.pair : t.Event → Fin t.size × Option Trivia
  | .node i => (i, none)
  | .token i => (i, none)
  | .trivia i item => (i, some item)

variable {σ : Type}

/-- What is done at a node, at a token, and at trivia of a token. -/
structure Visitor (t : Tree) (σ : Type) where
  node : Fin t.size → σ → σ := fun _ s ↦ s
  token : Fin t.size → σ → σ := fun _ s ↦ s
  trivia : Trivia → Fin t.size → σ → σ := fun _ _ s ↦ s

namespace Visitor

/-- Tells a visitor of a node and the trivia that is passed there, if any. -/
def tell (v : t.Visitor σ) (s : σ) : Fin t.size × Option Trivia → σ
  | (i, some item) => v.trivia item i s
  | (i, none) => if (t.node i).isToken then v.token i s else v.node i s

/-- Takes a visitor through a tree, and says how the walk ended. -/
def walk (v : t.Visitor σ) (descend : Bool) (s : σ) : σ × Walk.Ending :=
  let w := t.walk descend
  ((w.events.map Event.pair).foldl v.tell s, w.ending)

end Visitor

end CommentScope.Tree
