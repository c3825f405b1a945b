import CommentScope.Lexeme

/-!
# The lexemes of Java

What is peculiar to Java: text blocks in three quotes, words that may hold a dollar sign, and
`@interface`, which is one word. A line comment runs up to the line feed.
-/

namespace CommentScope.Java

open Lexeme (Step)

/-- The length of a text block behind its opening quotes. -/
def textBlockLength : List Char → Nat
  | '\\' :: _ :: cs => 2 + textBlockLength cs
  | '"' :: '"' :: '"' :: _ => 3
  | _ :: cs => 1 + textBlockLength cs
  | [] => 0

/-- The characters with which a word can start. -/
def isWordStart (c : Char) : Bool := Lexeme.isWordStart c || c == '$'

/-- The characters of which words are made. -/
def isWordChar (c : Char) : Bool := Lexeme.isWordChar c || c == '$'

/-- The step of the lexer. -/
def step (_ : Unit) (c : Char) (cs : List Char) : Step Unit :=
  if Lexeme.isBlank c then ⟨none, 0, ()⟩
  else if c = '/' && cs.head? = some '/' then
    ⟨some (.comment "line_comment"), Lexeme.spanLength (· != '\n') cs, ()⟩
  else if c = '/' && cs.head? = some '*' then
    ⟨some (.comment "block_comment"), 1 + Lexeme.blockLength (cs.drop 1), ()⟩
  else if c = '"' then
    if ['"', '"'].isPrefixOf cs then ⟨some .literal, 2 + textBlockLength (cs.drop 2), ()⟩
    else ⟨some .literal, Lexeme.quotedLength '"' cs, ()⟩
  else if c = '\'' then ⟨some .literal, Lexeme.quotedLength '\'' cs, ()⟩
  else if c.isDigit then ⟨some .literal, Lexeme.numberLength cs, ()⟩
  else if c = '@' && cs.takeWhile isWordChar == "interface".toList then ⟨some .word, 9, ()⟩
  else if isWordStart c then ⟨some .word, Lexeme.spanLength isWordChar cs, ()⟩
  else if (c = '-' && cs.head? = some '>') || (c = ':' && cs.head? = some ':') then
    ⟨some .sign, 1, ()⟩
  else ⟨some .sign, 0, ()⟩

/-- The lexemes of a source text. -/
def lexemes (text : String) : List Lexeme := Lexeme.ofText step () text

end CommentScope.Java
