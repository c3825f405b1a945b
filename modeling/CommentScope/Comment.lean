import CommentScope.Language
import CommentScope.Text.Search
import CommentScope.Trivia

/-!
# The trivia of a comment

In the languages with C's comments there are documentation comments of two forms, a run of lines
that start with `///` and a block in `/**` and `*/`; they become structured trivia whose parts are
the delimiters and the text between them. All other comments, and all comments of a language in
which they start with `#`, have no parts.

The columns of parts are found by adding a number of characters to the columns of the comment. Only
the text inside a `/**` comment can therefore get a span whose end precedes its start; it is refused.
-/

namespace CommentScope.Comment

/-- The delimiter of a documentation line. -/
def lineMark : List Char := ['/', '/', '/']

/-- The start of a documentation block. -/
def blockOpen : List Char := ['/', '*', '*']

/-- The end of a block comment. -/
def blockClose : List Char := ['*', '/']

/-- The parts of one line of documentation: the delimiter, and the text behind it if there is any.
A line without delimiter has no parts, and carriage returns at its end are left out. -/
def lineParts (line : Nat) (column : Int) (text : List Char) : List Trivia :=
  let text := Text.trimRight (· = '\r') text
  match Text.find? lineMark text with
  | none => []
  | some before =>
    let column := column + before
    let body := text.drop (before + 3)
    let mark := ⟨.docCommentExterior, String.ofList lineMark, .onLine line column 3, []⟩
    if body.isEmpty then [mark]
    else [mark,
      ⟨.docCommentText, String.ofList body, .onLine line (column + 3) body.length, []⟩]

/-- The parts of consecutive lines of documentation. Every line after the first starts at column
`0`. -/
def runParts (line : Nat) (column : Int) : List (List Char) → List Trivia
  | [] => []
  | text :: rest => lineParts line column text ++ runParts (line + 1) 0 rest

/-- The trivia of a run of documentation lines. -/
def docLines (text : String) (span : Span) : Trivia :=
  ⟨.singleLineDocComment, text, span,
    runParts span.startLine span.startColumn (Text.splitOn '\n' text.toList)⟩

/-- Whether a documentation block ends in a delimiter of its own. -/
def isClosed (text : List Char) : Bool := blockClose.isSuffixOf text && 5 ≤ text.length

/-- The text between the delimiters of a documentation block. -/
def blockBody (text : List Char) : List Char :=
  if isClosed text then (text.drop 3).take (text.length - 5) else text.drop 3

/-- The column at which the text of a documentation block ends. -/
def bodyEndColumn (text : List Char) (span : Span) : Int :=
  if isClosed text then span.endColumn - 2 else span.endColumn

/-- The text part of a documentation block, if there is text between its delimiters. -/
def bodyParts (text : List Char) (span : Span) : Except Span.Fault (List Trivia) :=
  if (blockBody text).isEmpty then .ok []
  else
    (Span.between? ⟨span.startLine, span.startColumn + 3⟩
      ⟨span.endLine, bodyEndColumn text span⟩).map fun s ↦
        [⟨.docCommentText, String.ofList (blockBody text), s, []⟩]

/-- The delimiter that starts a documentation block. -/
def openingPart (span : Span) : Trivia :=
  ⟨.docCommentExterior, String.ofList blockOpen, .onLine span.startLine span.startColumn 3, []⟩

/-- The delimiter that ends a documentation block, if it has one of its own. -/
def closingPart (text : List Char) (span : Span) : List Trivia :=
  if isClosed text then
    [⟨.docCommentExterior, String.ofList blockClose,
      .onLine span.endLine (span.endColumn - 2) 2, []⟩]
  else []

/-- The trivia of a documentation block. -/
def docBlock (text : String) (span : Span) : Except Span.Fault Trivia :=
  (bodyParts text.toList span).map fun body ↦
    ⟨.multiLineDocComment, text, span,
      openingPart span :: body ++ closingPart text.toList span⟩

/-- Whether a comment is documentation on a line: three slashes and no more. -/
def isDocLine (text : List Char) : Bool :=
  lineMark.isPrefixOf text && !('/' :: lineMark).isPrefixOf text

/-- Whether a comment is a documentation block: two stars, and not the empty comment. -/
def isDocBlock (text : List Char) : Bool :=
  blockOpen.isPrefixOf text && !(blockOpen ++ ['/']).isPrefixOf text

/-- The trivia of a comment with the given text and span. -/
def classify (language : Language) (text : String) (span : Span) : Except Span.Fault Trivia :=
  match language with
  | .python => pure ⟨.singleLineComment, text, span, []⟩
  | .csharp | .java =>
    let cs := text.toList
    -- Documentation first: its marks begin with those of the other comments.
    if isDocLine cs then pure (docLines text span)
    else if isDocBlock cs then docBlock text span
    else if ['/', '*'].isPrefixOf cs then pure ⟨.multiLineComment, text, span, []⟩
    else pure ⟨.singleLineComment, text, span, []⟩

/-- **A comment keeps its text and its span.** -/
theorem classify_eq_ok {language : Language} {text : String} {span : Span} {t : Trivia}
    (h : classify language text span = .ok t) : t.text = text ∧ t.span = span := by
  have block : docBlock text span = .ok t → t.text = text ∧ t.span = span := by
    unfold docBlock
    cases bodyParts text.toList span with
    | error e => simp [Except.map]
    | ok body =>
      intro h
      cases h
      exact ⟨rfl, rfl⟩
  unfold classify at h
  split at h
  · cases h; exact ⟨rfl, rfl⟩
  all_goals
    dsimp only at h
    split at h
    · cases h; exact ⟨rfl, rfl⟩
    · split at h
      · exact block h
      · split at h <;> (cases h; exact ⟨rfl, rfl⟩)

end CommentScope.Comment
