import CommentScope.Comment
import CommentScope.Concrete
import CommentScope.Role
import CommentScope.Text.Utf8

/-!
# What a grammar says about its node types

A `Grammar` tells which node types of a language's concrete syntax declare something and what, which
are comments, which take over the siblings behind them, with what a line of documentation starts, and
how the text of a comment becomes trivia. A record of this kind stands for each language; unless it
says otherwise, comments are classified as in that language.
-/

namespace CommentScope

/-- The tables of a language. -/
structure Grammar where
  language : Language
  roles : List (String × Role)
  comments : List String
  adopting : List String
  docMark : Option String
  classify : String → Span → Except Span.Fault Trivia := Comment.classify language

namespace Grammar

/-- The tables of C#. A file-scoped namespace has no braces around what it holds: everything behind
it belongs to it. -/
def csharp : Grammar where
  language := .csharp
  roles := [
    ("namespace_declaration", .space),
    ("file_scoped_namespace_declaration", .space),
    ("class_declaration", .type),
    ("struct_declaration", .type),
    ("interface_declaration", .type),
    ("enum_declaration", .type),
    ("record_declaration", .type),
    ("record_struct_declaration", .type),
    ("method_declaration", .member),
    ("constructor_declaration", .member),
    ("destructor_declaration", .member),
    ("property_declaration", .member),
    ("indexer_declaration", .member),
    ("operator_declaration", .member),
    ("conversion_operator_declaration", .member),
    ("event_declaration", .member),
    ("event_field_declaration", .member),
    ("field_declaration", .member),
    ("delegate_declaration", .member),
    ("enum_member_declaration", .member)]
  comments := ["comment"]
  adopting := ["file_scoped_namespace_declaration"]
  docMark := some "///"

/-- The tables of Java. A package declaration does not enclose the types behind it, so there are no
namespaces. -/
def java : Grammar where
  language := .java
  roles := [
    ("class_declaration", .type),
    ("interface_declaration", .type),
    ("enum_declaration", .type),
    ("record_declaration", .type),
    ("annotation_type_declaration", .type),
    ("method_declaration", .member),
    ("constructor_declaration", .member),
    ("compact_constructor_declaration", .member),
    ("field_declaration", .member),
    ("constant_declaration", .member),
    ("annotation_type_element_declaration", .member)]
  comments := ["line_comment", "block_comment", "comment"]
  adopting := []
  docMark := some "///"

/-- The tables of Python. Every function is a member, so that a comment in a nested function belongs
to the innermost one. Comments have no documentation form. -/
def python : Grammar where
  language := .python
  roles := [
    ("class_definition", .type),
    ("function_definition", .member)]
  comments := ["comment"]
  adopting := []
  docMark := none

/-- The tables of a language. -/
def ofLanguage : Language → Grammar
  | .csharp => csharp
  | .java => java
  | .python => python

/-- Comments are classified as in the language itself. -/
theorem classify_ofLanguage (l : Language) : (ofLanguage l).classify = Comment.classify l := by
  cases l <;> rfl

variable (g : Grammar)

/-- The role of a node type, if the type is in the table. -/
def role? (type : String) : Option Role := g.roles.lookup type

/-- The role of a node type; types outside the table declare nothing. -/
def role (type : String) : Role := (g.role? type).getD .nothing

/-- Whether a node is a comment. -/
def isComment (c : Concrete) : Bool := g.comments.contains c.label.type

/-- Whether an interior node takes over the siblings behind it. -/
def isAdopting (c : Concrete) : Bool := g.adopting.contains c.label.type

/-- Whether a comment is a line of documentation: its text starts with the mark, and the mark is not
followed by a further slash. -/
def isDocLine (source : ByteArray) (c : Concrete) : Bool :=
  match g.docMark with
  | none => false
  | some mark =>
    let text := (Utf8.slice source c.label.startByte c.label.endByte).toList
    mark.toList.isPrefixOf text && !(mark.toList ++ ['/']).isPrefixOf text

/-- The name that a node declares: the text of its name child, for node types in the table. -/
def declaredName? (source : ByteArray) (c : Concrete) : Option String := do
  let _ ← g.role? c.label.type
  let k ← c.label.nameChild
  let n ← c.children[k]?
  pure (Utf8.slice source n.label.startByte n.label.endByte)

end Grammar

end CommentScope
