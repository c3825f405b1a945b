/-!
# Lexemes

A source text cut into pieces: words, signs, literals, comments, directives, and the blanks between
them, which are dropped. A language says how many characters the next piece has and what it is; the
loop here does the cutting and keeps count of where each piece stands. Columns count octets of UTF-8
from the last line feed.

`length_cut_lt` is what ends the loop: a piece has at least one character.
-/

namespace CommentScope

/-- A place in a source text. -/
structure Cursor where
  offset : Nat
  row : Nat
  column : Nat
  deriving Inhabited

namespace Cursor

/-- The start of a text. -/
def origin : Cursor := ⟨0, 0, 0⟩

/-- The place behind one more character. -/
def next (p : Cursor) (c : Char) : Cursor :=
  if c = '\n' then ⟨p.offset + 1, p.row + 1, 0⟩
  else ⟨p.offset + c.utf8Size, p.row, p.column + c.utf8Size⟩

/-- The place behind some more characters. -/
def skip (p : Cursor) (cs : List Char) : Cursor := cs.foldl next p

theorem skip_append (p : Cursor) (as bs : List Char) :
    p.skip (as ++ bs) = (p.skip as).skip bs := by
  simp [skip]

/-- **Offsets count octets.** -/
theorem offset_skip (p : Cursor) (cs : List Char) :
    (p.skip cs).offset = p.offset + (String.ofList cs).utf8ByteSize := by
  induction cs generalizing p with
  | nil => simp [skip]
  | cons c cs ih =>
    have hnext : (p.next c).offset = p.offset + c.utf8Size := by
      unfold next
      split
      · rename_i h
        subst h
        rfl
      · rfl
    have hskip : p.skip (c :: cs) = (p.next c).skip cs := rfl
    rw [hskip, ih, hnext, String.ofList_cons, String.utf8ByteSize_append,
      String.utf8ByteSize_singleton, Nat.add_assoc]

/-- Rows count line feeds. -/
theorem row_skip (p : Cursor) (cs : List Char) :
    (p.skip cs).row = p.row + cs.count '\n' := by
  induction cs generalizing p with
  | nil => simp [skip]
  | cons c cs ih =>
    have hskip : p.skip (c :: cs) = (p.next c).skip cs := rfl
    rw [hskip, ih, List.count_cons]
    unfold next
    by_cases h : c = '\n'
    · simp [h]
      omega
    · simp [h]

end Cursor

/-- What a piece of source is. `lineEnd`, `indent` and `dedent` are marks without text, for languages
whose structure follows the layout. -/
inductive Lexeme.Kind where
  | word
  | sign
  | literal
  | directive
  | comment (type : String)
  | lineEnd
  | indent
  | dedent
  deriving DecidableEq, Inhabited

/-- A piece of source and where it stands. -/
structure Lexeme where
  kind : Lexeme.Kind
  text : String
  start : Cursor
  stop : Cursor
  deriving Inhabited

namespace Lexeme

/-- What a language makes of the characters at hand: what the next piece is, `none` for blanks; how
many characters it has besides its first; and the state of the language behind it. -/
structure Step (σ : Type) where
  kind : Option Kind
  more : Nat
  state : σ

/-- The rest of a text behind its first piece. -/
def cut (more : Nat) (cs : List Char) : List Char := cs.drop more

theorem length_cut_lt (more : Nat) (c : Char) (cs : List Char) :
    (cut more cs).length < (c :: cs).length := by
  simp only [cut, List.length_drop, List.length_cons]
  omega

/-- Cuts a text into pieces, the last of which comes first, behind those already found. -/
def cutAll {σ : Type} (step : σ → Char → List Char → Step σ) (state : σ) (place : Cursor)
    (found : List Lexeme) : List Char → List Lexeme
  | [] => found
  | c :: cs =>
    let s := step state c cs
    let piece := c :: cs.take s.more
    let stop := place.skip piece
    let found := match s.kind with
      | none => found
      | some kind => ⟨kind, String.ofList piece, place, stop⟩ :: found
    cutAll step s.state stop found (cut s.more cs)
termination_by cs => cs.length
decreasing_by exact length_cut_lt _ c cs

/-- The pieces of a text in order. -/
def ofText {σ : Type} (step : σ → Char → List Char → Step σ) (state : σ) (text : String) :
    List Lexeme :=
  (cutAll step state .origin [] text.toList).reverse

/-! ### Shapes that languages share -/

/-- The characters that separate pieces. -/
def isBlank (c : Char) : Bool :=
  c == ' ' || ('\t' ≤ c && c ≤ '\r') || c == '\u0085' || c == '\u00A0' || c == '\u1680' ||
    ('\u2000' ≤ c && c ≤ '\u200B') || c == '\u2028' || c == '\u2029' || c == '\u202F' ||
    c == '\u205F' || c == '\u2060' || c == '\u3000' || c == '\uFEFF'

/-- The characters with which a word can start: letters, and everything outside ASCII that is not
blank. -/
def isWordStart (c : Char) : Bool :=
  c.isAlpha || c == '_' || (c.toNat ≥ 128 && !isBlank c)

/-- The characters of which words are made. -/
def isWordChar (c : Char) : Bool := isWordStart c || c.isDigit

/-- The length of the longest start of a text that consists of characters of a class. -/
def spanLength (p : Char → Bool) (cs : List Char) : Nat := (cs.takeWhile p).length

/-- The length of a number behind its first digit. A point belongs to it if a digit follows. -/
def numberLength : List Char → Nat
  | '.' :: d :: cs => if d.isDigit then 2 + numberLength cs else 0
  | c :: cs => if isWordChar c then 1 + numberLength cs else 0
  | [] => 0

/-- The length of a text up to and including the first `close`, where a backslash takes away the
meaning of the character behind it. -/
def quotedLength (close : Char) : List Char → Nat
  | [] => 0
  | '\\' :: _ :: cs => 2 + quotedLength close cs
  | c :: cs => if c = close then 1 else 1 + quotedLength close cs

/-- The length of a block comment behind its first two characters. -/
def blockLength : List Char → Nat
  | '*' :: '/' :: _ => 2
  | _ :: cs => 1 + blockLength cs
  | [] => 0

/-- The number of times a character stands at the start of a text. -/
def runLength (c : Char) (cs : List Char) : Nat := spanLength (· == c) cs

end Lexeme

end CommentScope
