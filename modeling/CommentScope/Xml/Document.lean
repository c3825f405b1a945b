import CommentScope.Text.Newline
import CommentScope.Xml.Content
import CommentScope.Xml.DoctypeReader
import CommentScope.Xml.Encoding

/-!
# XML documents

`Document.read?` reads a document from its octets. What is kept of it are its elements in the order
of their start tags, so the first one is the root; a document that is not well-formed is refused.
-/

namespace CommentScope.Xml

/-- A document: its root, and the elements below it in order. -/
structure Document where
  root : Element
  below : List Element
  deriving DecidableEq

namespace Document

/-- All elements in order. -/
def elements (d : Document) : List Element := d.root :: d.below

/-- Takes what is before the root, and yields what it declares. -/
def prolog (fuel : Nat) (standsAlone : Bool) : Scan Doctype := do
  Scan.misc fuel
  if ← Scan.accepts "<!DOCTYPE" then
    Doctype.followedBy []
    Doctype.read fuel standsAlone
  else pure (.empty standsAlone)

/-- The document that a text is, behind its declaration. -/
def ofText? (standsAlone : Bool) (text : List Char) : Option Document := do
  if !text.all isChar then none
  let text := Text.Newline.unify text
  let (doctype, content) ← prolog (text.length + 1) standsAlone text
  match ← Content.single? doctype content with
  | [] => none
  | root :: below => some ⟨root, below⟩

/-- The document that octets stand for. -/
def read? (bytes : List UInt8) : Except Fault Document := do
  let (declaration, text) ← Encoding.textOf? bytes
  let some document := ofText? declaration.standsAlone text | throw .malformed
  pure document

end Document

end CommentScope.Xml
