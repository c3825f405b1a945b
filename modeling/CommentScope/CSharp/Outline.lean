import CommentScope.CSharp.Lexemes
import CommentScope.Outline

/-!
# The outline of C# source

Where namespaces, types and members start and end. A member starts with its attributes and modifiers
and is told apart by what follows its type: parentheses make a method or, without a type, a
constructor; braces or an arrow a property; anything else a field. Bodies are passed over by
counting brackets, since nothing that is declared in them counts.
-/

namespace CommentScope.CSharp

/-- What a list of declarations stands in. -/
inductive Level where
  | unit
  | space
  | type
  deriving DecidableEq, Inhabited

/-- What is known of a member before its kind is settled: how deep in brackets and in type arguments
its header is, how many words it has outside of them, where the last of those is, and whether the
type is a tuple. -/
structure Header where
  depth : Nat
  angle : Nat
  words : Nat
  last : Option Nat
  tuple : Bool
  deriving Inhabited

/-- Where the reading of an open node is. -/
inductive Phase where
  /-- Between declarations. -/
  | list (level : Level)
  /-- In the attributes and modifiers of a declaration; `depth` is that of attribute brackets, and
  `whole` counts the lexemes as long as they may be an attribute of the whole unit. -/
  | start (level : Level) (depth : Nat) (whole : Nat)
  /-- In an attribute of the whole unit. -/
  | unitAttribute (depth : Nat)
  /-- Behind `namespace`. -/
  | space
  /-- In the name of a namespace. -/
  | spaceName
  /-- Behind the word `record`, which may be a name as well. -/
  | record (level : Level)
  /-- In the header of a type, behind its keyword. -/
  | typeHeader (named : Bool) (depth : Nat)
  /-- Between the members of an enumeration. -/
  | enumList
  /-- In a member of an enumeration. -/
  | enumMember (named : Bool) (depth : Nat)
  /-- In the header of a member. -/
  | header (h : Header)
  /-- In the header of an event. -/
  | event (h : Header)
  /-- In the header of a delegate. -/
  | delegate (h : Header)
  /-- In the header of a member whose kind is known. -/
  | tail (depth : Nat)
  /-- Up to a semicolon outside of brackets. -/
  | toSemicolon (depth : Nat)
  /-- In a body in braces; behind the body of a property there may be an initial value. -/
  | body (depth : Nat) (property : Bool)
  /-- Behind the body of a property. -/
  | afterProperty
  /-- In a statement outside of all types. -/
  | statement (depth : Nat)
  deriving Inhabited

/-- The words that may stand before a declaration's keyword or type. -/
def modifiers : List String :=
  ["abstract", "async", "const", "extern", "file", "fixed", "internal", "new", "override", "partial",
    "private", "protected", "public", "readonly", "ref", "required", "scoped", "sealed", "static",
    "unsafe", "virtual", "volatile"]

/-- The node type of a declaration of a type, by its keyword. -/
def typeKeywords : List (String × String) :=
  [("class", "class_declaration"), ("struct", "struct_declaration"),
    ("interface", "interface_declaration"), ("enum", "enum_declaration")]

/-- Whether a lexeme is an opening bracket. -/
def isOpening (l : Lexeme) : Bool :=
  l.kind == .sign && (l.text == "(" || l.text == "[" || l.text == "\x7b")

/-- Whether a lexeme is a closing bracket. -/
def isClosing (l : Lexeme) : Bool :=
  l.kind == .sign && (l.text == ")" || l.text == "]" || l.text == "\x7d")

/-- Whether a lexeme is a given sign. -/
def isSign (l : Lexeme) (s : String) : Bool := l.kind == .sign && l.text == s

/-- Whether a lexeme is a given word. -/
def isWord (l : Lexeme) (s : String) : Bool := l.kind == .word && l.text == s

/-- The depth behind a lexeme. -/
def depthAfter (depth : Nat) (l : Lexeme) : Nat :=
  if isOpening l then depth + 1 else if isClosing l then depth - 1 else depth

/-- The outline that is being grown. -/
abbrev Growing := Outline Phase

/-- The place of the next child of the innermost node. -/
def nextChild (o : Growing) : Nat := (o.settle.top.below).length

/-- Takes in a lexeme of a member's header: how far the header is then. -/
def Header.after (h : Header) (place : Nat) (l : Lexeme) : Header :=
  if isOpening l || isClosing l then { h with depth := depthAfter h.depth l }
  else if h.depth ≠ 0 then h
  else if isSign l "<" then { h with angle := h.angle + 1 }
  else if isSign l ">" then { h with angle := h.angle - 1 }
  else if l.kind == .word && h.angle = 0 then { h with words := h.words + 1, last := some place }
  else h

/-- A header of which nothing has been read. -/
def Header.fresh : Header := ⟨0, 0, 0, none, false⟩

/-- Takes in the lexeme that settles the kind of a member, in which it ends or goes on. -/
def settleMember (o : Growing) (l : Lexeme) : Growing :=
  if isSign l ";" then (o.add l).leave
  else if isSign l "\x7b" then (o.add l).become (.body 1 false)
  else (o.add l).become (.toSemicolon (depthAfter 0 l))

/-- Takes in a lexeme of the header of a member. -/
def feedHeader (o : Growing) (h : Header) (l : Lexeme) : Growing :=
  let more := (o.add l).become (.header (h.after (nextChild o) l))
  if h.depth ≠ 0 || h.angle ≠ 0 then more
  else if isWord l "operator" then ((o.classify "operator_declaration").add l).become (.tail 0)
  else if isWord l "this" then
    ((o.classify "indexer_declaration").add l).become (.tail 0)
  else if isSign l "~" then ((o.classify "destructor_declaration").add l).become (.header h)
  else if isSign l "(" then
    -- Before any word it opens a tuple type, behind one it opens the parameters.
    if h.words = 0 then (o.add l).become (.header { h with depth := 1, tuple := true })
    else
      let type :=
        -- A destructor is known by now.
        if o.top.type.isSome then o
        else o.classify (if h.words = 1 && !h.tuple then "constructor_declaration"
          else "method_declaration")
      ((type.nameAt h.last).add l).become (.tail 1)
  else if isSign l "\x7b" then
    (((o.classify "property_declaration").nameAt h.last).add l).become (.body 1 true)
  else if isSign l "=>" then
    (((o.classify "property_declaration").nameAt h.last).add l).become (.toSemicolon 0)
  else if isSign l "=" || isSign l ";" || isSign l "," then
    settleMember (o.classify "field_declaration") l
  else more

/-- Takes in a lexeme of the header of an event. -/
def feedEvent (o : Growing) (h : Header) (l : Lexeme) : Growing :=
  if h.depth = 0 && h.angle = 0 && isSign l "\x7b" then
    (((o.classify "event_declaration").nameAt h.last).add l).become (.body 1 false)
  else if h.depth = 0 && h.angle = 0 && (isSign l "=" || isSign l ";" || isSign l ",") then
    settleMember (o.classify "event_field_declaration") l
  else (o.add l).become (.event (h.after (nextChild o) l))

/-- Takes in a lexeme of the header of a delegate. A star behind the keyword makes it the type of a
member. -/
def feedDelegate (o : Growing) (h : Header) (l : Lexeme) : Growing :=
  if h.words = 0 && isSign l "*" then
    (o.add l).become (.header { h with words := 1 })
  else if h.depth = 0 && h.angle = 0 && h.words ≠ 0 && isSign l "(" then
    (((o.classify "delegate_declaration").nameAt h.last).add l).become (.toSemicolon 1)
  else (o.add l).become (.delegate (h.after (nextChild o) l))

/-- Takes in a lexeme that is neither attribute nor modifier at the start of a declaration. -/
def feedKeyword (o : Growing) (level : Level) (l : Lexeme) : Growing :=
  match if l.kind == .word then typeKeywords.lookup l.text else none with
  | some type => ((o.classify type).add l).become (.typeHeader false 0)
  | none =>
    -- Outside of types, what is no declaration is a statement.
    if isWord l "record" then (o.add l).become (.record level)
    else if isWord l "namespace" then (o.add l).become .space
    else if isWord l "delegate" then (o.add l).become (.delegate .fresh)
    else if level ≠ .type then
      if isSign l ";" then (o.add l).leave
      else (o.add l).become (.statement (depthAfter 0 l))
    else if isWord l "event" then (o.add l).become (.event .fresh)
    else if isWord l "implicit" || isWord l "explicit" then
      ((o.classify "conversion_operator_declaration").add l).become (.tail 0)
    else feedHeader o .fresh l

/-- Takes in a lexeme at the start of a declaration. -/
def feedStart (o : Growing) (level : Level) (depth whole : Nat) (l : Lexeme) : Growing :=
  if depth ≠ 0 then
    -- Only `[assembly:` and `[module:` at the very start are attributes of the whole unit.
    let whole' :=
      if whole = 1 && (isWord l "assembly" || isWord l "module") then 2 else 0
    if whole = 2 && isSign l ":" then (o.add l).become (.unitAttribute depth)
    else (o.add l).become (.start level (depthAfter depth l) whole')
  else if isSign l "[" then
    (o.add l).become (.start level 1 (if o.top.below.isEmpty then 1 else 0))
  else if l.kind == .word && modifiers.contains l.text then (o.add l).become (.start level 0 0)
  else feedKeyword o level l

/-- Takes in a lexeme that starts a declaration. -/
def feedItem (o : Growing) (level : Level) (l : Lexeme) : Growing :=
  feedStart (o.enter (.start level 0 0)) level 0 0 l

/-- Takes in a lexeme between the members of an enumeration. -/
def feedEnumList (o : Growing) (l : Lexeme) : Growing :=
  if isSign l "\x7d" then (o.add l).leave
  else if isSign l "," then o.add l
  else
    let o := (o.enter default).classify "enum_member_declaration"
    if l.kind == .word then (o.nameNext.add l).become (.enumMember true 0)
    else (o.add l).become (.enumMember false (depthAfter 0 l))

/-- Takes in a lexeme of the header of a type. -/
def feedTypeHeader (o : Growing) (named : Bool) (depth : Nat) (l : Lexeme) : Growing :=
  if !named && l.kind == .word then
    -- A record may have a second keyword before its name.
    if isWord l "class" || isWord l "struct" then o.add l
    else (o.nameNext.add l).become (.typeHeader true depth)
  else if depth = 0 && isSign l ";" then (o.add l).leave
  else if depth = 0 && isSign l "\x7b" then
    (o.add l).become (if o.top.type = some "enum_declaration" then .enumList else .list .type)
  else (o.add l).become (.typeHeader named (depthAfter depth l))

/-- Takes in a lexeme, according to the phase of the innermost node. -/
def feed (o : Growing) (l : Lexeme) : Growing :=
  match o.phase with
  | .list level =>
    if isSign l "\x7d" && level ≠ .unit then (o.add l).leave
    else if isSign l ";" then o.add l
    else feedItem o level l
  | .start level depth whole => feedStart o level depth whole l
  | .unitAttribute depth =>
    let depth := depthAfter depth l
    if depth = 0 then (o.add l).leave else (o.add l).become (.unitAttribute depth)
  | .space =>
    if isSign l "\x7b" then
      ((o.classify "namespace_declaration").add l).become (.list .space)
    else if isSign l ";" then
      ((o.classify "file_scoped_namespace_declaration").add l).leave
    else ((((o.nameAt (some (nextChild o))).enter .spaceName).classify "qualified_name").add l)
  | .spaceName =>
    if isSign l "\x7b" then
      ((o.leave.classify "namespace_declaration").add l).become (.list .space)
    else if isSign l ";" then
      ((o.leave.classify "file_scoped_namespace_declaration").add l).leave
    else o.add l
  | .record level =>
    if l.kind == .word then feedTypeHeader (o.classify "record_declaration") false 0 l
    else if level = .type then
      -- `record` was the name of a method or of a constructor.
      feedHeader o { Header.fresh with words := 1, last := some (o.top.below.length - 1) } l
    else (o.add l).become (.statement (depthAfter 0 l))
  | .typeHeader named depth => feedTypeHeader o named depth l
  | .enumList => feedEnumList o l
  | .enumMember named depth =>
    if depth = 0 && (isSign l "," || isSign l "\x7d") then feedEnumList o.leave l
    else if !named && depth = 0 && l.kind == .word then
      (o.nameNext.add l).become (.enumMember true 0)
    else (o.add l).become (.enumMember named (depthAfter depth l))
  | .header h => feedHeader o h l
  | .event h => feedEvent o h l
  | .delegate h => feedDelegate o h l
  | .tail depth =>
    if depth = 0 && isSign l "=>" then (o.add l).become (.toSemicolon 0)
    else if depth = 0 && (isSign l ";" || isSign l "\x7b") then settleMember o l
    else (o.add l).become (.tail (depthAfter depth l))
  | .toSemicolon depth =>
    if depth = 0 && isSign l ";" then (o.add l).leave
    else (o.add l).become (.toSemicolon (depthAfter depth l))
  | .body depth property =>
    let depth := depthAfter depth l
    if depth ≠ 0 then (o.add l).become (.body depth property)
    else if property then (o.add l).become .afterProperty
    else (o.add l).leave
  | .afterProperty =>
    if isSign l "=" then (o.add l).become (.toSemicolon 0)
    else
      -- The property ended with its body, and the lexeme is the list's.
      let o := o.leave
      if isSign l "\x7d" then (o.add l).leave
      else if isSign l ";" then o.add l
      else feedItem o .type l
  | .statement depth =>
    let after := depthAfter depth l
    if (depth = 0 && isSign l ";") || (after = 0 && isSign l "\x7d") then (o.add l).leave
    else (o.add l).become (.statement after)

/-- The place behind a text. -/
def endOf (text : String) : Cursor := Cursor.origin.skip text.toList

/-- The concrete tree of a source text. -/
def parse (text : String) : Concrete :=
  Outline.ofLexemes feed (.list .unit) "compilation_unit" (endOf text) (lexemes text)

end CommentScope.CSharp
