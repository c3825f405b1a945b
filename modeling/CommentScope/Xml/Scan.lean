import CommentScope.Text.Hex
import CommentScope.Text.Search
import CommentScope.Xml.Names

/-!
# Scanning XML

`Scan` reads from the start of a text and fails on what is not well-formed. This module has the
readers that all parts of a document share: names, references, comments and instructions.
-/

namespace CommentScope.Xml

/-- A reader: it takes something from the start of a text, or fails. -/
abbrev Scan (α : Type) := StateT (List Char) Option α

namespace Scan

/-- The next character, which is not taken. -/
def peek : Scan (Option Char) := do
  let text ← get
  pure text.head?

/-- Whether a word comes next; it is taken if so. -/
def accepts (word : String) : Scan Bool := do
  let text ← get
  if word.toList.isPrefixOf text then
    set (text.drop word.length)
    pure true
  else pure false

/-- Takes a word. -/
def word (word : String) : Scan Unit := do
  if !(← accepts word) then failure

/-- Takes the longest start of characters of a class. -/
def run (p : Char → Bool) : Scan (List Char) := do
  let text ← get
  set (text.dropWhile p)
  pure (text.takeWhile p)

/-- Takes white space, and says whether there is any. -/
def blanks : Scan Bool := do
  let taken ← run isBlank
  pure (!taken.isEmpty)

/-- Takes everything up to and including a word, and yields what is before it. -/
def through (word : String) : Scan (List Char) := do
  let text ← get
  let some n := Text.find? word.toList text | failure
  set (text.drop (n + word.length))
  pure (text.take n)

/-- Takes a quotation mark and everything to the same mark, and yields what is between them. -/
def quoted : Scan (List Char) := do
  if ← accepts "\"" then through "\""
  else
    word "'"
    through "'"

/-- Takes a name. -/
def name : Scan String := do
  let some c ← peek | failure
  if !isNameStart c then failure
  let cs ← run isNameChar
  pure (String.ofList cs)

end Scan

/-- A name with an optional prefix. -/
structure QName where
  space : Option String
  base : String
  deriving DecidableEq

/-- Takes a name that may have a prefix. -/
def Scan.qname : Scan QName := do
  let first ← name
  if ← accepts ":" then
    let base ← name
    pure ⟨some first, base⟩
  else pure ⟨none, first⟩

/-! ### References -/

/-- A piece of text in which references have been seen: a character as it stands, one that was
referred to, or the name of an entity. -/
inductive Piece where
  | char (c : Char)
  | referred (c : Char)
  | entity (name : String)
  deriving DecidableEq

/-- The entities that every document has. -/
def standardEntities : List (String × Char) :=
  [("lt", '<'), ("gt", '>'), ("amp", '&'), ("quot", '"'), ("apos", '\'')]

/-- The character with a number, if it may stand in a document. -/
def charOf? (n : Nat) : Option Char :=
  if n.isValidChar && isChar (Char.ofNat n) then some (Char.ofNat n) else none

/-- The number that digits to a base stand for. -/
def numberOf? (base : Nat) (digits : List Char) : Option Nat :=
  if digits.isEmpty then none
  else digits.foldlM (fun n c ↦ do
    let d ← Text.hexValue? c
    if d < base then some (base * n + d) else none) 0

/-- Whether a text is a name. -/
def isName : List Char → Bool
  | [] => false
  | c :: cs => isNameStart c && cs.all isNameChar

/-- What is referred to by a text between `&` and `;`. -/
def referent? : List Char → Option Piece
  | '#' :: 'x' :: digits => do
    let n ← numberOf? 16 digits
    .referred <$> charOf? n
  | '#' :: digits => do
    let n ← numberOf? 10 digits
    .referred <$> charOf? n
  | name =>
    if isName name then
      match standardEntities.lookup (String.ofList name) with
      | some c => some (.referred c)
      | none => some (.entity (String.ofList name))
    else none

/-- Takes a reference. -/
def Scan.reference : Scan Piece := do
  word "&"
  let text ← through ";"
  let some piece := referent? text | failure
  pure piece

/-- Reads the pieces of a text; `skip` characters belong to the piece before. -/
def piecesFrom (skip : Nat) : List Char → Option (List Piece)
  | [] => some []
  | c :: rest =>
    match skip with
    | skip + 1 => piecesFrom skip rest
    | 0 =>
      if c = '&' then do
        let n ← Text.find? [';'] rest
        let piece ← referent? (rest.take n)
        (piece :: ·) <$> piecesFrom (n + 1) rest
      else (.char c :: ·) <$> piecesFrom 0 rest

/-- The pieces of a text. -/
def pieces? (text : List Char) : Option (List Piece) := piecesFrom 0 text

/-! ### Comments and instructions -/

namespace Scan

/-- Takes the rest of a comment behind its opening mark. Two hyphens end it. -/
def comment : Scan Unit := do
  let _ ← through "--"
  word ">"

/-- Takes the rest of a processing instruction behind its opening mark. The target `xml` is
reserved. -/
def instruction : Scan Unit := do
  let target ← name
  if target.toLower == "xml" then failure
  if ← accepts "?>" then pure ()
  else
    if !(← blanks) then failure
    let _ ← through "?>"

/-- Takes white space, comments and instructions. -/
def misc : (fuel : Nat) → Scan Unit
  | 0 => pure ()
  | fuel + 1 => do
    let _ ← blanks
    if ← accepts "<!--" then
      comment
      misc fuel
    else if ← accepts "<?" then
      instruction
      misc fuel

end Scan

end CommentScope.Xml
