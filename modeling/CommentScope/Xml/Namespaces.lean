import CommentScope.Xml.Scan

/-!
# Namespaces

Prefixes stand for namespaces within the element that binds them. The prefixes `xml` and `xmlns` are
reserved, and so are their namespaces.
-/

namespace CommentScope.Xml

/-- The namespace of the prefix `xml`. -/
def xmlSpace : String := "http://www.w3.org/XML/1998/namespace"

/-- The namespace of the prefix `xmlns`. -/
def xmlnsSpace : String := "http://www.w3.org/2000/xmlns/"

/-- A name with the namespace that its prefix stands for. -/
structure Name where
  space : Option String
  base : String
  deriving DecidableEq

/-- What prefixes stand for; the empty prefix stands for the namespace of names without prefix. -/
abbrev Scope := List (String × String)

namespace Scope

/-- What prefixes stand for outside of all elements. -/
def standard : Scope := [("xml", xmlSpace)]

/-- Binds a prefix. A namespace with a closing brace is refused. -/
def bind? (s : Scope) (pre uri : String) : Option Scope :=
  if pre = "xmlns" ∨ uri = xmlnsSpace ∨ (uri = "" ∧ pre ≠ "") ∨ uri.contains '}' then none
  else if (pre == "xml") != (uri == xmlSpace) then none
  else some ((pre, uri) :: s)

/-- The prefix that an attribute binds, if it binds one. -/
def prefixBound? (name : QName) : Option String :=
  match name with
  | ⟨none, "xmlns"⟩ => some ""
  | ⟨some "xmlns", base⟩ => some base
  | _ => none

/-- What prefixes stand for in an element with given attributes. -/
def bindAll? (s : Scope) (attributes : List (QName × String)) : Option Scope :=
  attributes.foldlM (fun s (name, value) ↦
    match prefixBound? name with
    | some pre => s.bind? pre value
    | none => some s) s

/-- The name that a name with a bound prefix is. -/
def prefixed? (s : Scope) (pre base : String) : Option Name := do
  let uri ← s.lookup pre
  some ⟨some uri, base⟩

/-- The name of an element. -/
def elementName? (s : Scope) (name : QName) : Option Name :=
  match name.space with
  | some pre => s.prefixed? pre name.base
  | none =>
    match s.lookup "" with
    | some uri => some ⟨if uri.isEmpty then none else some uri, name.base⟩
    | none => some ⟨none, name.base⟩

/-- The name of an attribute. Without prefix it is in no namespace. -/
def attributeName? (s : Scope) (name : QName) : Option Name :=
  match name.space with
  | some pre => s.prefixed? pre name.base
  | none => some ⟨none, name.base⟩

end Scope

end CommentScope.Xml
