import CommentScope.Xml.Doctype
import CommentScope.Xml.Namespaces

/-!
# Content of documents

Content is cut into tags, references and text; then tags are matched, the texts of entities are put
in for references to them, and attributes get their values. An element that begins in the text of an
entity must end there. The elements are listed in the order of their start tags.
-/

namespace CommentScope.Xml

/-- An element: its name and its attributes. -/
structure Element where
  name : Name
  attributes : List (Name × String)
  deriving DecidableEq

/-- The value of an attribute that is in no namespace. -/
def Element.attribute? (e : Element) (name : String) : Option String :=
  e.attributes.lookup ⟨none, name⟩

namespace Content

/-! ### Tags and text -/

/-- A part of content. -/
inductive Token where
  | opening (name : QName) (attributes : List (QName × List Char)) (isEmpty : Bool)
  /-- An end tag, with its name as it is written. -/
  | closing (name : String)
  | entity (name : String)
  | text (isBlank : Bool)
  | remark
  deriving DecidableEq

/-- Takes the attributes of a tag and its end, and says whether the element is empty. -/
def attributes : (fuel : Nat) → Scan (List (QName × List Char) × Bool)
  | 0 => failure
  | fuel + 1 => do
    let apart ← Scan.blanks
    if ← Scan.accepts ">" then pure ([], false)
    else if ← Scan.accepts "/>" then pure ([], true)
    else
      if !apart then failure
      let name ← Scan.qname
      let _ ← Scan.blanks
      Scan.word "="
      let _ ← Scan.blanks
      let value ← Scan.quoted
      let (rest, isEmpty) ← attributes fuel
      pure ((name, value) :: rest, isEmpty)

/-- Takes a start tag behind its opening mark. -/
def openingTag (fuel : Nat) : Scan Token := do
  let name ← Scan.qname
  let (attributes, isEmpty) ← attributes fuel
  pure (.opening name attributes isEmpty)

/-- Takes an end tag behind its opening mark. -/
def closingTag : Scan Token := do
  let some c ← Scan.peek | failure
  if !isNameStart c then failure
  let name ← Scan.run fun c ↦ isNameChar c || c == ':'
  let _ ← Scan.blanks
  Scan.word ">"
  pure (.closing (String.ofList name))

/-- Takes a part of content. -/
def token (fuel : Nat) : Scan Token := do
  let some c ← Scan.peek | failure
  if c == '&' then
    match ← Scan.reference with
    | .entity name => pure (.entity name)
    | _ => pure (.text false)
  else if c != '<' then
    let text ← Scan.run fun c ↦ c != '<' && c != '&'
    if Text.isInfix "]]>".toList text then failure
    pure (.text (text.all isBlank))
  else if ← Scan.accepts "<!--" then
    Scan.comment
    pure .remark
  else if ← Scan.accepts "<![CDATA[" then
    let _ ← Scan.through "]]>"
    pure (.text false)
  else if ← Scan.accepts "<?" then
    Scan.instruction
    pure .remark
  else if ← Scan.accepts "</" then closingTag
  else
    Scan.word "<"
    openingTag fuel

/-- Takes all parts of content. -/
def tokens : (fuel : Nat) → Scan (List Token)
  | 0 => failure
  | fuel + 1 => do
    if (← get).isEmpty then pure []
    else
      let first ← token fuel
      let rest ← tokens fuel
      pure (first :: rest)

/-- The parts of a text. -/
def tokensOf? (text : List Char) : Option (List Token) := (tokens (text.length + 1)).run' text

/-! ### Elements -/

/-- A name as it is written. -/
def written (name : QName) : String :=
  match name.space with
  | some pre => pre ++ ":" ++ name.base
  | none => name.base

/-- The values of the attributes of an element: those of its tag and the standard ones. -/
def valuesOf? (d : Doctype) (element : QName) (attributes : List (QName × List Char)) :
    Option (List (QName × String)) := do
  let rules := d.rulesFor element
  let names := attributes.map Prod.fst
  if !decide names.Nodup then none
  let given ← attributes.mapM fun (name, value) ↦ do
    let isText := (rules.find? fun r ↦ r.name == name).all fun r ↦ r.isText
    let value ← d.valueOf? isText value
    some (name, String.ofList value)
  let standard := rules.filterMap fun r ↦
    if names.contains r.name then none
    else r.value.map fun value ↦ (r.name, String.ofList value)
  some (given ++ standard)

/-- The element that a start tag opens, and what prefixes stand for in it. -/
def element? (d : Doctype) (s : Scope) (name : QName) (attributes : List (QName × List Char)) :
    Option (Element × Scope) := do
  let values ← valuesOf? d name attributes
  let inner ← s.bindAll? values
  -- The bindings hold for the names of the element itself and are no attributes of it.
  let visible := values.filter fun (name, _) ↦ (Scope.prefixBound? name).isNone
  let attributes ← visible.mapM fun (name, value) ↦ do
    let name ← inner.attributeName? name
    some (name, value)
  if !decide (attributes.map Prod.fst).Nodup then none
  let name ← inner.elementName? name
  some (⟨name, attributes⟩, inner)

/-- The elements of content. `tags` are the elements that are open, with what prefixes stand for
outside of them; `s` is what they stand for at present. `within` are the entities whose texts are
being read, `depth` is how many more may be. -/
def elements (d : Doctype) (depth : Nat) (within : List String) (tags : List (String × Scope))
    (s : Scope) : List Token → Option (List Element)
  | [] => if tags.isEmpty then some [] else none
  | .opening name attributes isEmpty :: rest => do
    let (e, inner) ← element? d s name attributes
    let following ← if isEmpty then elements d depth within tags s rest
      else elements d depth within ((written name, s) :: tags) inner rest
    some (e :: following)
  | .closing name :: rest =>
    match tags with
    | [] => none
    | (tag, outer) :: tags => if tag = name then elements d depth within tags outer rest else none
  | .entity name :: rest =>
    match d.entities.lookup name with
    | some (.text value) =>
      if within.contains name then none
      else
        match depth with
        | 0 => none
        | depth + 1 => do
          -- The text of an entity is content of its own, with no element open around it.
          let tokens ← tokensOf? value
          let inside ← elements d depth (name :: within) [] s tokens
          let following ← elements d (depth + 1) within tags s rest
          some (inside ++ following)
    | _ => none
  | .text _ :: rest => elements d depth within tags s rest
  | .remark :: rest => elements d depth within tags s rest
termination_by tokens => (depth, tokens.length)

/-- The parts of the first element and the parts behind it; `depth` elements are open. -/
def splitRoot (depth : Nat) : List Token → List Token × List Token
  | [] => ([], [])
  | t :: rest =>
    let depth := match t with
      | .opening _ _ false => depth + 1
      | .closing _ => depth - 1
      | _ => depth
    if depth = 0 then ([t], rest)
    else
      let (root, behind) := splitRoot depth rest
      (t :: root, behind)

/-- Whether a part may stand outside of all elements. -/
def isOutside : Token → Bool
  | .text isBlank => isBlank
  | .remark => true
  | _ => false

/-- The elements of content that is one element, with nothing around it but white space, comments
and instructions. -/
def single? (d : Doctype) (text : List Char) : Option (List Element) := do
  let tokens ← tokensOf? text
  let (root, behind) := splitRoot 0 (tokens.dropWhile isOutside)
  if !behind.all isOutside then none
  elements d d.entities.length [] [] .standard root

end Content

end CommentScope.Xml
