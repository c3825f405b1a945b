import CommentScope.Outline
import CommentScope.Python.Lexemes

/-!
# The outline of Python source

Where functions and classes start and end. A definition starts at the start of a logical line; behind
the colon of its header it has either the rest of the line or a block. It ends with the mark that
ends these, so that comments before the mark belong to it.
-/

namespace CommentScope.Python

/-- Where the reading of an open node is. -/
inductive Phase where
  /-- Among the statements of a block with so many blocks of other statements open in it; `fresh` at
  the start of a logical line. -/
  | block (nested : Nat) (fresh : Bool)
  /-- Behind `async` at the start of a logical line. -/
  | async
  /-- In the header of a definition. -/
  | header (depth : Nat) (named : Bool)
  /-- Behind the colon of a header. -/
  | suite
  /-- In the rest of the line behind a header. -/
  | line
  deriving Inhabited

/-- The outline that is being grown. -/
abbrev Growing := Outline Phase

/-- The node type of a definition, by its keyword. -/
def definitionKeywords : List (String × String) :=
  [("def", "function_definition"), ("class", "class_definition")]

/-- Takes in the keyword of a definition. -/
def feedKeyword (o : Growing) (type : String) (l : Lexeme) : Growing :=
  ((o.classify type).add l).become (.header 0 false)

/-- Takes in a lexeme among statements. -/
def feedBlock (o : Growing) (nested : Nat) (fresh : Bool) (l : Lexeme) : Growing :=
  match l.kind with
  | .indent => o.settle.become (.block (nested + 1) true)
  | .dedent => if nested = 0 then o.settle.leave else o.settle.become (.block (nested - 1) true)
  | .lineEnd => o.settle.become (.block nested true)
  | .word =>
    let o := o.become (.block nested fresh)
    match if fresh then definitionKeywords.lookup l.text else none with
    | some type => feedKeyword (o.enter default) type l
    | none =>
      if fresh && l.text == "async" then (o.enter .async).add l
      else (o.add l).become (.block nested false)
  | _ => (o.add l).become (.block nested false)

/-- Takes in a lexeme, according to the phase of the innermost node. -/
def feed (o : Growing) (l : Lexeme) : Growing :=
  match o.phase with
  | .block nested fresh => feedBlock o nested fresh l
  | .async =>
    match if l.kind == .word then definitionKeywords.lookup l.text else none with
    | some type => feedKeyword o type l
    | none =>
      let o := o.leave
      match o.phase with
      | .block nested _ => feedBlock o nested false l
      | _ => o.add l
  | .header depth named =>
    if l.kind == .word && !named then (o.nameNext.add l).become (.header depth true)
    else if l.kind == .sign && l.text == ":" && depth = 0 then (o.add l).become .suite
    else if l.kind == .sign && (l.text == "(" || l.text == "[" || l.text == "\x7b") then
      (o.add l).become (.header (depth + 1) named)
    else if l.kind == .sign && (l.text == ")" || l.text == "]" || l.text == "\x7d") then
      (o.add l).become (.header (depth - 1) named)
    else o.add l
  | .suite =>
    match l.kind with
    | .indent => o.settle.become (.block 0 true)
    | .lineEnd => o.settle.leave
    | _ => (o.add l).become .line
  | .line =>
    match l.kind with
    | .lineEnd => o.settle.leave
    | _ => o.add l

/-- The concrete tree of a source text. -/
def parse (text : String) : Concrete :=
  Outline.ofLexemes feed (.block 0 true) "module" (Cursor.origin.skip text.toList) (lexemes text)

end CommentScope.Python
