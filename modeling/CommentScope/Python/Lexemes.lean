import CommentScope.Lexeme

/-!
# The lexemes of Python

Besides words, signs, literals and comments there are marks for the layout: where a logical line
ends, where a block starts and where it ends. Marks stand right behind a piece of source, before the
blanks and comments that follow; `Look` is what is seen from there.

A block ends before a comment that is indented less than it, if the code behind the comment is too;
comments that are indented as the block or more still belong to it. Inside brackets and in the holes
of strings there are no marks.
-/

namespace CommentScope.Python

/-- How a string is written. -/
structure Quoting where
  quote : Char
  triple : Bool
  raw : Bool
  format : Bool

/-- A hole of a string: how the string is written, how many brackets were open around the string,
whether the hole stands in the format of another hole, and whether its own format is being read. -/
structure Hole where
  quoting : Quoting
  outside : Nat
  nested : Bool
  inFormat : Bool

/-- What the lexer remembers: the indentations of the open blocks, the innermost first; the brackets
open in the innermost hole or outside of all; the holes; whether the last piece was a colon outside of
brackets; and whether a statement is being read. -/
structure LexState where
  indents : List Nat
  depth : Nat
  holes : List Hole
  colon : Bool
  inStatement : Bool

/-- The lexer before the first piece. -/
def LexState.initial : LexState := ⟨[0], 0, [], false, false⟩

/-- Whether line ends are blanks. -/
def LexState.enclosed (s : LexState) : Bool := s.depth ≠ 0 || !s.holes.isEmpty

/-! ### Marks -/

/-- What is seen from behind a piece of source: the indentation of the next line with code, and that
of the first comment line before it. -/
structure Look where
  indent : Nat
  comment : Option Nat

/-- Looks over blanks, line ends and comment lines. There is nothing to see if the next piece is on
the same line. A tab counts for eight, and a carriage return or form feed starts the count anew. -/
def look (endOfLine inComment : Bool) (indent : Nat) (comment : Option Nat) :
    List Char → Option Look
  | [] => some ⟨0, comment⟩
  | c :: cs =>
    if inComment then
      if c = '\n' then look endOfLine false 0 comment cs else look endOfLine true indent comment cs
    else if c = '\n' then look true false 0 comment cs
    else if c = ' ' then look endOfLine false (indent + 1) comment cs
    else if c = '\t' then look endOfLine false (indent + 8) comment cs
    else if c = '\r' || c = '\x0c' then look endOfLine false 0 comment cs
    else if c = '#' then
      if endOfLine then look endOfLine true indent (comment <|> some indent) cs else none
    else if c = '\\' then
      match cs with
      | '\r' :: '\n' :: rest => look endOfLine false indent comment rest
      | '\n' :: rest => look endOfLine false indent comment rest
      | _ => none
    else if endOfLine then some ⟨indent, comment⟩ else none

/-- Whether a block ends: the code that follows is indented less, and so is the first comment. -/
def Look.ends (l : Look) (block : Nat) : Bool :=
  l.indent < block && (match l.comment with
    | none => true
    | some c => c < block)

/-- The blocks that stay open behind a place. -/
def stillOpen (l : Look) : List Nat → List Nat
  | [] => []
  | block :: outer => if l.ends block then stillOpen l outer else block :: outer

/-- The marks behind a place, and the state after them. -/
def marks (s : LexState) (l : Look) : List Lexeme.Kind × LexState :=
  let block := s.indents.headD 0
  -- A block starts only behind a colon; deeper code elsewhere continues the block it stands in.
  if s.colon && block < l.indent then
    ([.indent], { s with indents := l.indent :: s.indents, colon := false, inStatement := false })
  else
    let ended := if s.inStatement then [Lexeme.Kind.lineEnd] else []
    let remaining := stillOpen l s.indents
    (ended ++ List.replicate (s.indents.length - remaining.length) .dedent,
      { s with indents := remaining, colon := false, inStatement := false })

/-! ### Pieces -/

/-- Reads the text of a string behind `read` characters of it: the number of characters up to and
including the quotes that end it or the brace of its next hole, and whether there is a hole. -/
def textLength (q : Quoting) (read : Nat) : List Char → Nat × Bool
  | [] => (read, false)
  | c :: cs =>
    if c = '\\' then
      match cs with
      -- The braces of a named character are no hole.
      | 'N' :: '{' :: rest =>
        if q.raw || !q.format then textLength q (read + 1) ('N' :: '{' :: rest)
        else
          let name := Lexeme.spanLength (· != '}') rest
          textLength q (read + 3 + name) (rest.drop name)
      | d :: rest =>
        if d = '\\' || d = '"' || d = '\'' then textLength q (read + 2) rest
        else textLength q (read + 1) (d :: rest)
      | [] => (read + 1, false)
    else if c = q.quote then
      if !q.triple then (read + 1, false)
      else if [q.quote, q.quote].isPrefixOf cs then (read + 3, false)
      else textLength q (read + 1) cs
    else if c = '{' && q.format then
      if cs.head? = some '{' then textLength q (read + 2) (cs.drop 1) else (read + 1, true)
    else textLength q (read + 1) cs
termination_by cs => cs.length
decreasing_by all_goals simp only [List.length_drop, List.length_cons]; omega

/-- A piece of source: what it is, how many characters it has besides its first, and the state
behind it. -/
abbrev Step := Lexeme.Step LexState

/-- The state behind a piece of code. -/
def LexState.afterCode (s : LexState) (colon : Bool) : LexState :=
  { s with colon, inStatement := true }

/-- The step for a piece of a string that has `read` characters before its text. -/
def stringStep (s : LexState) (q : Quoting) (read : Nat) (text : List Char) : Step :=
  let (length, hole) := textLength q read text
  let s := s.afterCode false
  let s := if hole then
      { s with holes := ⟨q, s.depth, false, false⟩ :: s.holes, depth := 0 }
    else s
  ⟨some .literal, length - 1, s⟩

/-- Whether letters may stand before the quotes of a string. -/
def isStringMark (cs : List Char) : Bool :=
  cs.length ≤ 2 && cs.all fun c ↦ "bBfFrRtTuU".toList.contains c

/-- How a string with certain letters before its quotes is written. -/
def quotingOf (mark : List Char) (quote : Char) (triple : Bool) : Quoting where
  quote
  triple
  raw := mark.any fun c ↦ c == 'r' || c == 'R'
  format := mark.any fun c ↦ "fFtT".toList.contains c

/-- The step for a string, if one starts here behind some letters. -/
def stringStart? (s : LexState) (cs : List Char) : Option Step :=
  let mark := cs.takeWhile Lexeme.isWordChar
  if isStringMark mark then
    match cs.drop mark.length with
    | c :: rest =>
      if c = '"' || c = '\'' then
        if [c, c].isPrefixOf rest then
          some (stringStep s (quotingOf mark c true) (mark.length + 3) (rest.drop 2))
        else some (stringStep s (quotingOf mark c false) (mark.length + 1) rest)
      else none
    | [] => none
  else none

/-- The step for a sign. -/
def signStep (s : LexState) (c : Char) : Step :=
  let sign (s : LexState) : Step := ⟨some .sign, 0, s⟩
  let s' := s.afterCode false
  if c = '(' || c = '[' || c = '{' then sign { s' with depth := s.depth + 1 }
  else if c = ')' || c = ']' || c = '}' then sign { s' with depth := s.depth - 1 }
  else sign (s.afterCode (c = ':' && !s.enclosed))

/-- The step in a hole, for a character that ends the hole or belongs to its format, if it does. -/
def holeStep? (s : LexState) (c : Char) (cs : List Char) : Option Step :=
  match s.holes with
  | [] => none
  | h :: hs =>
    if s.depth ≠ 0 then none
    else if c = '}' then
      let outer := { s with holes := hs, depth := h.outside }
      -- A nested hole gives back to the format it stands in, any other to the text of its string.
      if h.nested then some ⟨some .literal, 0, outer.afterCode false⟩
      else some (stringStep outer h.quoting 1 cs)
    else if h.inFormat then
      if c = '{' then
        some ⟨some .literal, 0, { s with holes := ⟨h.quoting, 0, true, false⟩ :: s.holes }⟩
      else some ⟨some .literal, Lexeme.spanLength (fun d ↦ d != '{' && d != '}') cs, s⟩
    else if c = ':' then
      some ⟨some .literal, Lexeme.spanLength (fun d ↦ d != '{' && d != '}') cs,
        { s with holes := { h with inFormat := true } :: hs }⟩
    else none

/-- The step of the lexer. -/
def step (s : LexState) (c : Char) (cs : List Char) : Step :=
  match holeStep? s c cs with
  | some step => step
  | none =>
    if Lexeme.isBlank c then ⟨none, 0, s⟩
    else if c = '\\' then ⟨none, 0, s⟩
    else if c = '#' then ⟨some (.comment "comment"), Lexeme.spanLength (· != '\n') cs, s⟩
    else
      match stringStart? s (c :: cs) with
      | some step => step
      | none =>
        if c.isDigit then ⟨some .literal, Lexeme.numberLength cs, s.afterCode false⟩
        else if Lexeme.isWordStart c then
          ⟨some .word, Lexeme.spanLength Lexeme.isWordChar cs, s.afterCode false⟩
        else signStep s c

/-- The marks that stand at a place. -/
def marksAt (s : LexState) (cs : List Char) : List Lexeme.Kind × LexState :=
  if s.enclosed then ([], s)
  else
    match look false false 0 none cs with
    | none => ([], s)
    | some l => marks s l

/-- Cuts a text into pieces with the marks between them, the last of which comes first, behind those
already found. -/
def cutAll (s : LexState) (place : Cursor) (found : List Lexeme) : List Char → List Lexeme
  | [] => found
  | c :: cs =>
    let t := step s c cs
    let piece := c :: cs.take t.more
    let stop := place.skip piece
    match t.kind with
    | none => cutAll t.state stop found (Lexeme.cut t.more cs)
    | some kind =>
      let rest := Lexeme.cut t.more cs
      let (between, s) := marksAt t.state rest
      let found := between.foldl (fun found mark ↦ ⟨mark, "", stop, stop⟩ :: found)
        (⟨kind, String.ofList piece, place, stop⟩ :: found)
      cutAll s stop found rest
termination_by cs => cs.length
decreasing_by all_goals exact Lexeme.length_cut_lt _ c cs

/-- The lexemes of a source text. -/
def lexemes (text : String) : List Lexeme := (cutAll .initial .origin [] text.toList).reverse

end CommentScope.Python
