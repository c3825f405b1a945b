import CommentScope.Lexeme

/-!
# The lexemes of C#

What is peculiar to C#: strings in four forms (regular, verbatim, raw, and each of them interpolated),
whose holes contain code; and directives, which take the rest of their line. Behind `#region`,
`#define` and the like the rest of the line is text, up to a block comment; behind the others it may
hold comments.

The state is the stack of holes being read, each with the number of brackets open in it.
-/

namespace CommentScope.CSharp

open Lexeme (Step Kind)

/-- How a string is written: whether backslashes are ordinary, how many quotes end it, and how many
braces open a hole; `0` if it has no holes. -/
structure Quoting where
  verbatim : Bool
  quotes : Nat
  braces : Nat

/-- A hole of an interpolated string, with the number of brackets open in it. -/
structure Hole where
  quoting : Quoting
  depth : Nat

/-- What the lexer remembers: the holes it is in, and whether the line is that of a directive. -/
structure LexState where
  holes : List Hole
  directive : Bool

/-- Reads the text of a string behind `read` characters of it: the number of characters up to and
including the quotes that end it or the braces of its next hole, and whether there is a hole. -/
def textLength (q : Quoting) (read : Nat) : List Char → Nat × Bool
  | [] => (read, false)
  | c :: cs =>
    if c = '"' then
      let run := 1 + Lexeme.runLength '"' cs
      if 3 ≤ q.quotes then
        if q.quotes ≤ run then (read + run, false)
        else textLength q (read + run) (cs.drop (run - 1))
      else if q.verbatim && 2 ≤ run then textLength q (read + 2) (cs.drop 1)
      else (read + 1, false)
    else if c = '{' && 0 < q.braces then
      let run := 1 + Lexeme.runLength '{' cs
      if q.quotes < 3 && 2 ≤ run then textLength q (read + 2) (cs.drop 1)
      else if q.braces ≤ run then (read + run, true)
      else textLength q (read + run) (cs.drop (run - 1))
    else if c = '\\' && !q.verbatim && q.quotes < 3 then textLength q (read + 2) (cs.drop 1)
    else textLength q (read + 1) cs
termination_by cs => cs.length
decreasing_by all_goals simp only [List.length_drop, List.length_cons]; omega

/-- The step for a piece of a string that has `read` characters before its text. -/
def stringStep (s : LexState) (q : Quoting) (read : Nat) (text : List Char) : Step LexState :=
  let (length, hole) := textLength q read text
  let s := if hole then { s with holes := ⟨q, 0⟩ :: s.holes } else s
  ⟨some .literal, length - 1, s⟩

/-- What stands before the quotes of a string, and how it is quoted, if a string starts here. -/
def stringStart? (cs : List Char) : Option (Nat × Quoting) :=
  let mark := cs.takeWhile fun c ↦ c == '$' || c == '@'
  let quotes := Lexeme.runLength '"' (cs.drop mark.length)
  let braces := mark.count '$'
  let verbatim := mark.contains '@'
  if quotes = 0 then none
  else if 3 ≤ quotes && !verbatim then some (mark.length + quotes, ⟨false, quotes, braces⟩)
  else some (mark.length + 1, ⟨verbatim, 1, braces⟩)

/-- The directives behind which the rest of the line is text. -/
def textDirectives : List String :=
  ["region", "endregion", "error", "warning", "define", "undef", "!"]

/-- The length of a directive's text: up to the end of the line or a block comment. -/
def directiveTextLength : List Char → Nat
  | '/' :: '*' :: _ => 0
  | c :: cs => if c = '\n' then 0 else 1 + directiveTextLength cs
  | [] => 0

/-- The length of a piece of a directive's line: up to the end of the line or a comment. -/
def directivePieceLength : List Char → Nat
  | '/' :: '/' :: _ => 0
  | '/' :: '*' :: _ => 0
  | c :: cs => if c = '\n' || c = '\r' then 0 else 1 + directivePieceLength cs
  | [] => 0

/-- The step for a directive, behind its number sign. -/
def directiveStep (s : LexState) (cs : List Char) : Step LexState :=
  let gap := Lexeme.spanLength (fun c ↦ c == ' ' || c == '\t') cs
  let name := (cs.drop gap).takeWhile fun c ↦ c.isAlpha || c == '!'
  let read := gap + name.length
  if textDirectives.contains (String.ofList name) then
    ⟨some .directive, read + directiveTextLength (cs.drop read), s⟩
  else ⟨some .directive, read, { s with directive := true }⟩

/-- The step inside a hole for a character that is a bracket or ends the hole, if it is. -/
def holeStep? (s : LexState) (c : Char) (cs : List Char) : Option (Step LexState) :=
  match s.holes with
  | [] => none
  | h :: hs =>
    let deeper (depth : Nat) : Option (Step LexState) :=
      some ⟨some .sign, 0, { s with holes := { h with depth } :: hs }⟩
    if c = '(' || c = '[' || c = '{' then deeper (h.depth + 1)
    else if c = '}' && h.depth = 0 then
      some (stringStep { s with holes := hs } h.quoting h.quoting.braces
        (cs.drop (h.quoting.braces - 1)))
    else if c = ')' || c = ']' || c = '}' then deeper (h.depth - 1)
    else if c = ':' && h.depth = 0 && cs.head? != some ':' then
      some ⟨some .literal, Lexeme.spanLength (· != '}') cs, s⟩
    else none

/-- The step of the lexer. -/
def step (s : LexState) (c : Char) (cs : List Char) : Step LexState :=
  if Lexeme.isBlank c then ⟨none, 0, if c = '\n' then { s with directive := false } else s⟩
  else if c = '/' && cs.head? = some '/' then
    ⟨some (.comment "comment"), Lexeme.spanLength (fun d ↦ d != '\n' && d != '\r') cs, s⟩
  else if c = '/' && cs.head? = some '*' then
    ⟨some (.comment "comment"), 1 + Lexeme.blockLength (cs.drop 1), s⟩
  else if s.directive then ⟨some .directive, directivePieceLength cs, s⟩
  else if c = '#' then directiveStep s cs
  else
    match stringStart? (c :: cs) with
    | some (read, q) => stringStep s q read ((c :: cs).drop read)
    | none =>
      match holeStep? s c cs with
      | some step => step
      | none =>
        if c = '\'' then ⟨some .literal, Lexeme.quotedLength '\'' cs, s⟩
        else if c.isDigit then ⟨some .literal, Lexeme.numberLength cs, s⟩
        else if Lexeme.isWordStart c || c = '@' then
          ⟨some .word, Lexeme.spanLength Lexeme.isWordChar cs, s⟩
        else if (c = '=' && cs.head? = some '>') || (c = ':' && cs.head? = some ':') then
          ⟨some .sign, 1, s⟩
        else ⟨some .sign, 0, s⟩

/-- The lexemes of a source text. -/
def lexemes (text : String) : List Lexeme := Lexeme.ofText step ⟨[], false⟩ text

end CommentScope.CSharp
