import CommentScope.Xml.Doctype

/-!
# Reading document types

The document type is made of tokens with white space between them where it is needed. Declarations
of elements and notations are checked for their form and dropped.
-/

namespace CommentScope.Xml

namespace Doctype

/-! ### Tokens -/

/-- A token of a document type. -/
inductive Token where
  /-- The start of a declaration, with its keyword. -/
  | opening (keyword : String)
  | closing
  /-- A name, with the sign of repetition behind it. -/
  | name (name : QName) (repeats : Option Char)
  /-- A word that is not a name. -/
  | word
  /-- A word with a number sign. -/
  | hash (name : String)
  | literal (text : List Char)
  | percent
  /-- A reference to the outside. -/
  | outside
  | comma
  | bar
  | openParen
  | closeParen (repeats : Option Char)
  | openBracket
  | closeBracket
  /-- A comment or an instruction. -/
  | remark
  deriving DecidableEq

/-- Whether a character may stand in a word. -/
def isWordChar (c : Char) : Bool := isNameChar c || c == ':'

/-- The signs of repetition. -/
def isRepeat (c : Char) : Bool := c == '?' || c == '*' || c == '+'

/-- The name that a word is, if it is one. -/
def nameOf? (word : List Char) : Option QName :=
  if word.head?.any isNameStart then
    match Text.splitOn ':' word with
    | [base] => some ⟨none, String.ofList base⟩
    | [space, base] =>
      if base.isEmpty then none else some ⟨some (String.ofList space), String.ofList base⟩
    | _ => none
  else none

/-- Fails unless white space or one of some characters comes next. -/
def followedBy (others : List Char) : Scan Unit := do
  let some c ← Scan.peek | failure
  if !(isBlank c || others.contains c) then failure

/-- Takes a sign of repetition, if there is one. -/
def repetition : Scan (Option Char) := do
  let some c ← Scan.peek | failure
  if isRepeat c then
    Scan.word (String.singleton c)
    pure (some c)
  else pure none

/-- Takes a word. -/
def wordToken : Scan Token := do
  let word ← Scan.run isWordChar
  match nameOf? word with
  | none =>
    if word.isEmpty then failure
    followedBy ['>', ')', ',', '|', '[', '%']
    pure .word
  | some name =>
    match ← repetition with
    | some c => pure (.name name (some c))
    | none =>
      followedBy ['>', ')', ',', '|', '[', '%']
      pure (.name name none)

/-- Takes the rest of a token that begins with `<`. -/
def markToken : Scan Token := do
  if ← Scan.accepts "!--" then
    Scan.comment
    pure .remark
  else if ← Scan.accepts "?" then
    Scan.instruction
    pure .remark
  else
    Scan.word "!"
    let keyword ← Scan.run fun c ↦ isNameStart c
    if keyword.isEmpty then failure
    followedBy []
    pure (.opening (String.ofList keyword))

/-- Takes the rest of a token that begins with a percent sign. -/
def percentToken : Scan Token := do
  let some c ← Scan.peek | failure
  if isBlank c || c == '%' then pure .percent
  else
    let _ ← Scan.name
    Scan.word ";"
    pure .outside

/-- Takes white space and a token. -/
def token : Scan Token := do
  let _ ← Scan.blanks
  let some c ← Scan.peek | failure
  if c == '"' || c == '\'' then
    let text ← Scan.quoted
    followedBy ['>', '%', '[']
    pure (.literal text)
  else if ← Scan.accepts "<" then markToken
  else if ← Scan.accepts "%" then percentToken
  else if ← Scan.accepts "#" then
    let name ← Scan.name
    followedBy [')', '>', '%', '|']
    pure (.hash name)
  else if ← Scan.accepts "," then pure .comma
  else if ← Scan.accepts "|" then pure .bar
  else if ← Scan.accepts ">" then pure .closing
  else if ← Scan.accepts "(" then pure .openParen
  else if ← Scan.accepts "[" then pure .openBracket
  else if ← Scan.accepts "]" then pure .closeBracket
  else if ← Scan.accepts ")" then
    match ← repetition with
    | some c => pure (.closeParen (some c))
    | none =>
      followedBy ['>', ',', '|', ')']
      pure (.closeParen none)
  else wordToken

/-- Takes a given token. -/
def expect (t : Token) : Scan Unit := do
  if (← token) != t then failure

/-- Takes a name without prefix. -/
def plainName : Scan String := do
  match ← token with
  | .name ⟨none, base⟩ none => pure base
  | _ => failure

/-- Takes a name that may have a prefix. -/
def anyName : Scan QName := do
  match ← token with
  | .name name none => pure name
  | _ => failure

/-- Takes a literal. -/
def literal : Scan (List Char) := do
  match ← token with
  | .literal text => pure text
  | _ => failure

/-- Whether a character may stand in a public identifier. -/
def isPublicChar (c : Char) : Bool :=
  c.isAlphanum || c == '\n' || " -'()+,./:=?;!*#@$_%".toList.contains c

/-- Takes a public identifier. -/
def publicId : Scan Unit := do
  let text ← literal
  if !text.all isPublicChar then failure

/-- Takes what follows the word `SYSTEM` or `PUBLIC`. -/
def externalId (keyword : String) : Scan Unit := do
  if keyword == "PUBLIC" then publicId
  else if keyword != "SYSTEM" then failure
  let _ ← literal
  pure ()

/-! ### Entities -/

/-- The text of an entity that is written in a given way: characters are put in for references to
them, references to entities stay. -/
def entityTextOf (skip : Nat) : List Char → Option (List Char)
  | [] => some []
  | c :: rest =>
    match skip with
    | skip + 1 => entityTextOf skip rest
    | 0 =>
      if c = '%' then none
      else if c = '&' then do
        -- A character is put in now; an entity where the text is read.
        let n ← Text.find? [';'] rest
        let piece ← referent? (rest.take n)
        let following ← entityTextOf (n + 1) rest
        let written := '&' :: rest.take (n + 1)
        match piece with
        | .referred a => some (if rest.head? = some '#' then a :: following else written ++ following)
        | _ => some (written ++ following)
      else (c :: ·) <$> entityTextOf 0 rest

/-- Takes the rest of the declaration of an entity that is referred to in declarations only. It is
checked and dropped. -/
def declarationEntity (d : Doctype) : Scan Unit := do
  let _ ← plainName
  match ← token with
  | .literal written =>
    expect .closing
    if d.counts && (entityTextOf 0 written).isNone then failure
  | .name ⟨none, keyword⟩ none =>
    externalId keyword
    expect .closing
  | _ => failure

/-- Takes the rest of the declaration of an entity. -/
def entity (d : Doctype) : Scan Doctype := do
  match ← token with
  | .percent =>
    declarationEntity d
    pure d
  | .name ⟨none, name⟩ none =>
    match ← token with
    | .literal written =>
      expect .closing
      if d.counts then
        let some text := entityTextOf 0 written | failure
        pure (d.addEntity name (.text text))
      else pure d
    | .name ⟨none, keyword⟩ none =>
      externalId keyword
      match ← token with
      | .closing => pure (d.addEntity name .outside)
      | .name ⟨none, "NDATA"⟩ none =>
        let _ ← plainName
        expect .closing
        pure (d.addEntity name .unparsed)
      | _ => failure
    | _ => failure
  | _ => failure

/-! ### Attributes -/

/-- The types of attributes besides text, lists of notations and lists of words. -/
def wordTypes : List String :=
  ["ID", "IDREF", "IDREFS", "ENTITY", "ENTITIES", "NMTOKEN", "NMTOKENS"]

/-- Takes the rest of a list of words, or of names only. -/
def wordList (namesOnly : Bool) : (fuel : Nat) → Scan Unit
  | 0 => failure
  | fuel + 1 => do
    match ← token with
    | .name ⟨none, _⟩ none => pure ()
    | .name _ none => if namesOnly then failure
    | .word => if namesOnly then failure
    | _ => failure
    match ← token with
    | .closeParen none => pure ()
    | .bar => wordList namesOnly fuel
    | _ => failure

/-- Takes the type of an attribute, and says whether its value is any text. -/
def attributeType (fuel : Nat) : Scan Bool := do
  match ← token with
  | .openParen =>
    wordList false fuel
    pure false
  | .name ⟨none, "CDATA"⟩ none => pure true
  | .name ⟨none, "NOTATION"⟩ none =>
    expect .openParen
    wordList true fuel
    pure false
  | .name ⟨none, type⟩ none => if wordTypes.contains type then pure false else failure
  | _ => failure

/-- Declares an attribute with a standard value. -/
def withValue (d : Doctype) (element name : QName) (isText : Bool) (written : List Char) :
    Scan Doctype := do
  if d.counts then
    let some value := d.valueOf? isText written | failure
    pure (d.addRule ⟨element, name, isText, some value⟩)
  else pure d

/-- Takes the rest of the declaration of attributes. -/
def attributeList (element : QName) : (fuel : Nat) → Doctype → Scan Doctype
  | 0, _ => failure
  | fuel + 1, d => do
    match ← token with
    | .closing => pure d
    | .name name none =>
      let isText ← attributeType fuel
      let d ← match ← token with
        | .hash "IMPLIED" | .hash "REQUIRED" => pure (d.addRule ⟨element, name, isText, none⟩)
        | .hash "FIXED" =>
          let written ← literal
          d.withValue element name isText written
        | .literal written => d.withValue element name isText written
        | _ => failure
      attributeList element fuel d
    | _ => failure

/-! ### Elements -/

/-- Takes the rest of mixed content behind `#PCDATA`. -/
def mixedContent (names : Bool) : (fuel : Nat) → Scan Unit
  | 0 => failure
  | fuel + 1 => do
    match ← token with
    | .closeParen none => if names then failure
    | .closeParen (some '*') => pure ()
    | .bar =>
      let _ ← anyName
      mixedContent true fuel
    | _ => failure

/-- Takes the rest of content made of elements. `joints` are the signs that join the parts of the
groups that are open, from the inside; `wanted` says that a part must come next. -/
def elementContent (joints : List (Option Token)) (wanted : Bool) : (fuel : Nat) → Scan Unit
  | 0 => failure
  | fuel + 1 => do
    match joints, wanted, ← token with
    | joints, true, .openParen => elementContent (none :: joints) true fuel
    | joints, true, .name _ _ => elementContent joints false fuel
    -- The parentheses around all of the content are the last to be closed.
    | _ :: outer, false, .closeParen _ =>
      if outer.isEmpty then pure () else elementContent outer false fuel
    | joint :: outer, false, t =>
      if (t = .comma ∨ t = .bar) ∧ joint.all (· = t) then
        elementContent (some t :: outer) true fuel
      else failure
    | _, _, _ => failure

/-- Takes the content of an element. -/
def content (fuel : Nat) : Scan Unit := do
  match ← token with
  | .name ⟨none, "EMPTY"⟩ none | .name ⟨none, "ANY"⟩ none => pure ()
  | .openParen =>
    match ← token with
    | .hash "PCDATA" => mixedContent false fuel
    | .openParen => elementContent [none, none] true fuel
    | .name _ _ => elementContent [none] false fuel
    | _ => failure
  | _ => failure

/-! ### Declarations -/

/-- Takes the rest of the declaration of a notation. -/
def noteDeclaration : Scan Unit := do
  let _ ← plainName
  match ← token with
  | .name ⟨none, "SYSTEM"⟩ none =>
    let _ ← literal
    expect .closing
  | .name ⟨none, "PUBLIC"⟩ none =>
    publicId
    match ← token with
    | .closing => pure ()
    | .literal _ => expect .closing
    | _ => failure
  | _ => failure

/-- Takes declarations up to the closing bracket. -/
def declarations : (fuel : Nat) → Doctype → Scan Doctype
  | 0, _ => failure
  | fuel + 1, d => do
    match ← token with
    | .closeBracket => pure d
    | .remark => declarations fuel d
    | .outside => declarations fuel d.interrupted
    | .opening "ENTITY" =>
      let d ← entity d
      declarations fuel d
    | .opening "ATTLIST" =>
      let element ← anyName
      let d ← attributeList element fuel d
      declarations fuel d
    | .opening "ELEMENT" =>
      let _ ← anyName
      content fuel
      expect .closing
      declarations fuel d
    | .opening "NOTATION" =>
      noteDeclaration
      declarations fuel d
    | _ => failure

/-- Takes what is between brackets, if it is there, and the end of the document type. -/
def subset (fuel : Nat) (d : Doctype) : Token → Scan Doctype
  | .closing => pure d
  | .openBracket => do
    let d ← declarations fuel d
    expect .closing
    pure d
  | _ => failure

/-- Takes a document type behind its opening mark. -/
def read (fuel : Nat) (standsAlone : Bool) : Scan Doctype := do
  let _ ← anyName
  match ← token with
  | .name ⟨none, keyword⟩ none =>
    externalId keyword
    let t ← token
    subset fuel (empty standsAlone).opened t
  | t => subset fuel (empty standsAlone) t

end Doctype

end CommentScope.Xml
