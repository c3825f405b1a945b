import CommentScope.Span

/-!
# Trivia

Source text without meaning for the program it stands in: comments, the parts of documentation
comments, blanks. Documentation comments are structured: the trivia of such a comment carries the
trivia of its parts, to any depth. `Trivia.items` lists a trivia item together with everything
inside it, outermost first.
-/

namespace CommentScope

/-- What a trivia item is. -/
inductive Trivia.Kind where
  | singleLineComment
  | multiLineComment
  | singleLineDocComment
  | multiLineDocComment
  | docCommentExterior
  | docCommentText
  | whitespace
  | endOfLine
  | other
  deriving DecidableEq, Inhabited

namespace Trivia.Kind

/-- Every kind of trivia. -/
def all : List Kind :=
  [.singleLineComment, .multiLineComment, .singleLineDocComment, .multiLineDocComment,
    .docCommentExterior, .docCommentText, .whitespace, .endOfLine, .other]

/-- The name of a kind in reports. -/
def name : Kind → String
  | .singleLineComment => "single_line_comment"
  | .multiLineComment => "multi_line_comment"
  | .singleLineDocComment => "single_line_doc_comment"
  | .multiLineDocComment => "multi_line_doc_comment"
  | .docCommentExterior => "doc_comment_exterior"
  | .docCommentText => "doc_comment_text"
  | .whitespace => "whitespace"
  | .endOfLine => "end_of_line"
  | .other => "other"

/-- The kind with the given name. -/
def ofName? (s : String) : Option Kind :=
  all.find? fun k ↦ k.name == s

/-- Comments, and the delimiters of documentation comments, count as comments; the text inside a
documentation comment does not. -/
def isComment : Kind → Bool
  | .singleLineComment | .multiLineComment | .singleLineDocComment | .multiLineDocComment
  | .docCommentExterior => true
  | .docCommentText | .whitespace | .endOfLine | .other => false

end Trivia.Kind

/-- A piece of source text without meaning, with the trivia nested in it. -/
inductive Trivia where
  | mk (kind : Trivia.Kind) (text : String) (span : Span) (children : List Trivia)

namespace Trivia

/-- What the item is. -/
def kind : Trivia → Kind
  | ⟨k, _, _, _⟩ => k

/-- The source text of the item, delimiters included. -/
def text : Trivia → String
  | ⟨_, t, _, _⟩ => t

/-- Where the item stands. -/
def span : Trivia → Span
  | ⟨_, _, s, _⟩ => s

/-- The items directly inside this one. -/
def children : Trivia → List Trivia
  | ⟨_, _, _, cs⟩ => cs

/-- Whether the item counts as a comment. -/
def isComment (t : Trivia) : Bool := t.kind.isComment

/-- Whether the item has parts of its own. -/
def isStructured (t : Trivia) : Bool := !t.children.isEmpty

mutual

/-- The item followed by everything nested in it, in source order. -/
def items : Trivia → List Trivia
  | ⟨k, t, s, cs⟩ => ⟨k, t, s, cs⟩ :: itemsOfAll cs

/-- The items of each member of a list, one after the other. -/
def itemsOfAll : List Trivia → List Trivia
  | [] => []
  | t :: ts => items t ++ itemsOfAll ts

end

theorem itemsOfAll_eq_flatMap (ts : List Trivia) : itemsOfAll ts = ts.flatMap items := by
  induction ts with
  | nil => rfl
  | cons t ts ih => simp [itemsOfAll, ih]

/-- **An item comes before everything nested in it.** -/
theorem items_eq_cons (t : Trivia) : t.items = t :: t.children.flatMap items := by
  cases t
  simp [items, children, itemsOfAll_eq_flatMap]

end Trivia

end CommentScope
