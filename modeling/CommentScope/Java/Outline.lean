import CommentScope.Java.Lexemes
import CommentScope.Outline

/-!
# The outline of Java source

Where types and members start and end. Code counts as well, since it can hold types of its own: a
local class at the start of a statement, and the members of an anonymous class behind `new`. Modifiers
at the start of a statement open a node, which is spliced into the code again if no type follows.
-/

namespace CommentScope.Java

/-- What a list of declarations stands in; `code` is for declarations among statements. -/
inductive Level where
  | unit
  | body
  | interface
  | annotationType
  | code
  deriving DecidableEq, Inhabited

/-- How far an annotation has been read: not at all, up to the start of a name, or up to its end. -/
inductive AnnotationState where
  | absent
  | name
  | named
  deriving DecidableEq, Inhabited

/-- What is known of a member before its kind is settled: how deep in type arguments its header is,
how many words it has outside of them, and where the last of those is. -/
structure Header where
  angle : Nat
  words : Nat
  last : Option Nat
  mark : AnnotationState
  deriving Inhabited

/-- Where in code the reading is: at the start of a statement, inside one, in the type behind `new`
with so many type arguments open, or behind the arguments of `new`. -/
inductive CodePoint where
  | start
  | inside
  | newType (angle : Nat)
  | newArguments
  deriving DecidableEq, Inhabited

/-- How a piece of code ends: at a closing brace, at another closing bracket, at a semicolon, or, for
a statement outside of all types, at a semicolon or behind a block. -/
inductive CodeEnd where
  | brace
  | bracket
  | semicolon
  | statement
  deriving DecidableEq, Inhabited

/-- Where the reading of an open node is. -/
inductive Phase where
  /-- Between declarations. -/
  | list (level : Level)
  /-- In the annotations and modifiers of a declaration. -/
  | start (level : Level) (mark : AnnotationState)
  /-- Behind the word `record`, which may be a name as well. -/
  | record (level : Level)
  /-- Behind `record` and a word. -/
  | recordName (level : Level) (place : Nat)
  /-- In the header of a type; `inner` is what its braces hold. -/
  | typeHeader (inner : Level) (isEnum : Bool) (named : Bool)
  /-- Between the constants of an enumeration. -/
  | constants
  /-- In the header of a member. -/
  | header (level : Level) (h : Header)
  /-- Behind the parameters of a method. -/
  | methodTail
  /-- Before and in the block with which a member ends. -/
  | block
  /-- In code. -/
  | code (ending : CodeEnd) (point : CodePoint)
  deriving Inhabited

/-- The words that may stand before a declaration's keyword or type. -/
def modifiers : List String :=
  ["abstract", "default", "final", "native", "non", "private", "protected", "public", "sealed",
    "static", "strictfp", "synchronized", "transient", "volatile"]

/-- The node type of a declaration of a type, by its keyword, and what its braces hold. -/
def typeKeywords : List (String × String × Level) :=
  [("class", "class_declaration", .body), ("interface", "interface_declaration", .interface),
    ("enum", "enum_declaration", .body),
    ("@interface", "annotation_type_declaration", .annotationType)]

/-- The words with which a statement outside of all types can start. -/
def statementWords : List String :=
  ["package", "import", "module", "open", "assert", "break", "continue", "do", "else", "for", "if",
    "new", "return", "super", "switch", "this", "throw", "try", "while", "yield"]

/-- Whether a lexeme is a given sign. -/
def isSign (l : Lexeme) (s : String) : Bool := l.kind == .sign && l.text == s

/-- Whether a lexeme is a given word. -/
def isWord (l : Lexeme) (s : String) : Bool := l.kind == .word && l.text == s

/-- The outline that is being grown. -/
abbrev Growing := Outline Phase

/-- The place of the next child of the innermost node. -/
def nextChild (o : Growing) : Nat := (o.settle.top.below).length

/-- Opens a piece of code with its opening bracket. -/
def openCode (o : Growing) (ending : CodeEnd) (point : CodePoint) (l : Lexeme) : Growing :=
  (o.enter (.code ending point)).add l

/-- Goes on behind a block or a type: where that ends a member, the member is closed, and in code a
statement may start. -/
def resume (o : Growing) : Growing :=
  match o.phase with
  | .block => o.leave
  | .code .statement _ => o.leave
  | .code ending _ => o.become (.code ending .start)
  | _ => o

/-- Goes on behind the body of an anonymous class. -/
def resumeExpression (o : Growing) : Growing :=
  match o.phase with
  | .code ending _ => o.become (.code ending .inside)
  | _ => o

/-- Whether a lexeme may start the declaration of a type among statements. -/
def mayStartType (l : Lexeme) : Bool :=
  isSign l "@" || (l.kind == .word &&
    (modifiers.contains l.text || l.text == "record" || (typeKeywords.lookup l.text).isSome))

/-- Takes in a lexeme of the header of a type. -/
def feedTypeHeader (o : Growing) (inner : Level) (isEnum named : Bool) (l : Lexeme) : Growing :=
  if !named && l.kind == .word then (o.nameNext.add l).become (.typeHeader inner isEnum true)
  else if isSign l "\x7b" then (o.add l).become (if isEnum then .constants else .list inner)
  else if isSign l "(" then openCode o .bracket .inside l
  else o.add l

/-- Takes in a lexeme of code that is neither part of a type behind `new` nor the end of the code. -/
def feedStatement (o : Growing) (ending : CodeEnd) (l : Lexeme) : Growing :=
  if isSign l "\x7b" then openCode (o.become (.code ending .start)) .brace .start l
  else if isSign l "(" || isSign l "[" then
    openCode (o.become (.code ending .inside)) .bracket .inside l
  else if isWord l "new" then (o.add l).become (.code ending (.newType 0))
  -- Behind a label, a case or an arrow a statement may start, as behind a semicolon.
  else if isSign l ";" || isSign l ":" || isSign l "->" then
    (o.add l).become (.code ending .start)
  else (o.add l).become (.code ending .inside)

/-- Takes in a lexeme of code that does not end it. -/
def feedCode (o : Growing) (ending : CodeEnd) (point : CodePoint) (l : Lexeme) : Growing :=
  match point with
  | .newType angle =>
    if isSign l "<" then (o.add l).become (.code ending (.newType (angle + 1)))
    else if isSign l ">" then (o.add l).become (.code ending (.newType (angle - 1)))
    else if angle ≠ 0 || l.kind == .word || isSign l "." || isSign l "@" then o.add l
    else if isSign l "(" then
      openCode (o.become (.code ending .newArguments)) .bracket .inside l
    else feedStatement o ending l
  | .newArguments =>
    if isSign l "\x7b" then (o.enter (.list .body)).add l
    else feedStatement o ending l
  | .start | .inside => feedStatement o ending l

/-- Takes in a lexeme of code. -/
def feedCodeOrEnd (o : Growing) (ending : CodeEnd) (point : CodePoint) (l : Lexeme) : Growing :=
  match ending with
  | .brace => if isSign l "\x7d" then resume (o.add l).leave else feedCode o ending point l
  | .bracket =>
    if isSign l ")" || isSign l "]" then (o.add l).leave else feedCode o ending point l
  | .semicolon | .statement =>
    if isSign l ";" then (o.add l).leave else feedCode o ending point l

/-- Gives up a node that turned out not to declare a type, and takes a lexeme in as code. -/
def backToCode (o : Growing) (l : Lexeme) : Growing :=
  let o := o.leave
  match o.phase with
  | .code ending point => feedCodeOrEnd o ending point l
  | _ => o.add l

/-- Makes a node outside of all types a statement, and takes a lexeme in as code. -/
def toStatement (o : Growing) (l : Lexeme) : Growing := feedCodeOrEnd o .statement .inside l

/-- Takes in a lexeme that belongs to an annotation, if it does; `again` is the phase of the node
for each state of the annotation. -/
def feedAnnotation? (o : Growing) (a : AnnotationState) (again : AnnotationState → Phase) (l : Lexeme) :
    Option Growing :=
  if isSign l "@" then some ((o.add l).become (again .name))
  else
    match a with
    | .absent => none
    | .name => if l.kind == .word then some ((o.add l).become (again .named)) else none
    | .named =>
      if isSign l "." then some ((o.add l).become (again .name))
      else if isSign l "(" then some (openCode (o.become (again .absent)) .bracket .inside l)
      else none

/-- The node type of a method. -/
def methodType : Level → String
  | .annotationType => "annotation_type_element_declaration"
  | _ => "method_declaration"

/-- The node type of a field. -/
def fieldType : Level → String
  | .interface | .annotationType => "constant_declaration"
  | _ => "field_declaration"

/-- Takes in a lexeme of the header of a member. -/
def feedHeader (o : Growing) (level : Level) (h : Header) (l : Lexeme) : Growing :=
  match feedAnnotation? o h.mark (fun a ↦ .header level { h with mark := a }) l with
  | some o => o
  | none =>
    let h := { h with mark := .absent }
    let go (h : Header) : Growing := (o.add l).become (.header level h)
    if isSign l "<" then go { h with angle := h.angle + 1 }
    else if isSign l ">" then go { h with angle := h.angle - 1 }
    else if h.angle ≠ 0 then go h
    else if l.kind == .word then
      go { h with words := h.words + 1, last := some (nextChild o) }
    else if isSign l "(" then
      -- Outside of all types a single word before a parenthesis is called, not declared.
      if level = .unit && h.words ≤ 1 then toStatement o l
      else
        let type := if h.words = 1 then "constructor_declaration" else methodType level
        openCode (((o.classify type).nameAt h.last).become .methodTail) .bracket .inside l
    else if isSign l "\x7b" && level ≠ .unit then
      openCode (((o.classify "compact_constructor_declaration").nameAt h.last).become .block)
        .brace .start l
    else if isSign l "=" || isSign l "," || isSign l ";" then
      -- Variables outside of all types belong to no member.
      let o := if level = .unit then o else o.classify (fieldType level)
      feedCodeOrEnd o .semicolon .inside l
    else if isSign l "." || isSign l "[" || isSign l "]" || isSign l "?" then go h
    else if level = .unit then toStatement o l
    else go h

/-- Takes in a lexeme at the start of a declaration. -/
def feedStart (o : Growing) (level : Level) (a : AnnotationState) (l : Lexeme) : Growing :=
  match feedAnnotation? o a (.start level) l with
  | some o => o
  | none =>
    let keyword := if l.kind == .word then typeKeywords.lookup l.text else none
    match keyword with
    | some (type, inner) =>
      ((o.classify type).add l).become (.typeHeader inner (type == "enum_declaration") false)
    | none =>
      -- The hyphen is that of `non-sealed`.
      if (l.kind == .word && modifiers.contains l.text) || isSign l "-" then
        (o.add l).become (.start level .absent)
      else if isWord l "record" then (o.add l).become (.record level)
      else
        match level with
        | .code => backToCode o l
        | .unit =>
          if l.kind == .word && !statementWords.contains l.text || isSign l "<" then
            feedHeader o level default l
          else toStatement o l
        | .body | .interface | .annotationType =>
          if isSign l "\x7b" then openCode (o.become .block) .brace .start l
          else feedHeader o level default l

/-- Takes in a lexeme that starts a declaration. -/
def feedItem (o : Growing) (level : Level) (l : Lexeme) : Growing :=
  feedStart (o.enter (.start level .absent)) level .absent l

/-- Takes in the lexeme behind `record`, or behind `record` and a word, that shows it to be a name. -/
def feedNoRecord (o : Growing) (level : Level) (words last : Nat) (l : Lexeme) : Growing :=
  match level with
  | .code => backToCode o l
  | .unit => toStatement o l
  | .body | .interface | .annotationType =>
    feedHeader o level ⟨0, words, some last, .absent⟩ l

/-- Takes in a lexeme, according to the phase of the innermost node. -/
def feed (o : Growing) (l : Lexeme) : Growing :=
  match o.phase with
  | .list level =>
    if isSign l "\x7d" && level ≠ .unit then
      let anonymous := o.top.type.isNone
      let o := (o.add l).leave
      if anonymous then resumeExpression o else resume o
    else if isSign l ";" then o.add l
    else feedItem o level l
  | .start level a => feedStart o level a l
  | .record level =>
    if l.kind == .word then (o.add l).become (.recordName level (nextChild o))
    else feedNoRecord o level 1 (o.top.below.length - 1) l
  | .recordName level place =>
    -- A record has components; with anything else behind the name, `record` was a type.
    if isSign l "(" || isSign l "<" then
      let o := (o.classify "record_declaration").nameAt (some place)
      feedTypeHeader (o.become (.typeHeader .body false true)) .body false true l
    else feedNoRecord o level 2 place l
  | .typeHeader inner isEnum named => feedTypeHeader o inner isEnum named l
  | .constants =>
    if isSign l "\x7d" then resume (o.add l).leave
    else if isSign l ";" then (o.add l).become (.list .body)
    else if isSign l "(" then openCode o .bracket .inside l
    else if isSign l "\x7b" then (o.enter (.list .body)).add l
    else o.add l
  | .header level h => feedHeader o level h l
  | .methodTail =>
    if isSign l "\x7b" then openCode (o.become .block) .brace .start l
    else if isSign l ";" then (o.add l).leave
    else if isSign l "(" then openCode o .bracket .inside l
    else if isWord l "default" then (o.add l).become (.code .semicolon .inside)
    else o.add l
  | .block => o.add l
  | .code ending point =>
    if point = .start && mayStartType l then
      feedItem (o.become (.code ending .inside)) .code l
    else feedCodeOrEnd o ending point l

/-- The concrete tree of a source text. -/
def parse (text : String) : Concrete :=
  Outline.ofLexemes feed (.list .unit) "program" (Cursor.origin.skip text.toList) (lexemes text)

end CommentScope.Java
