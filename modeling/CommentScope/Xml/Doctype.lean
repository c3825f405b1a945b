import CommentScope.Xml.Scan

/-!
# Document types

What the document type of a document declares, as far as it counts for reading the document: the
entities with their texts, and the attributes with their types and standard values. Of several
declarations of one thing the first counts.

Nothing outside the document is looked up. Once something outside may declare things, an entity that
is not declared is no fault in itself (`Doctype.isStrict`); and declarations behind a reference to
the outside do not count any more, unless the document stands alone.
-/

namespace CommentScope.Xml

/-- What an entity stands for. -/
inductive EntityValue where
  | text (value : List Char)
  /-- It is outside the document. -/
  | outside
  /-- It is no text at all. -/
  | unparsed
  deriving DecidableEq

/-- What is declared of an attribute of the elements of a name. -/
structure AttributeRule where
  element : QName
  name : QName
  /-- Whether the value is any text; otherwise it is made of words. -/
  isText : Bool
  value : Option (List Char)
  deriving DecidableEq

/-- What a document type declares. -/
structure Doctype where
  entities : List (String × EntityValue)
  attributes : List AttributeRule
  /-- Whether something outside the document may declare things. -/
  isOpen : Bool
  standsAlone : Bool
  /-- Whether further declarations count. -/
  counts : Bool

namespace Doctype

/-- What a document without a document type declares. -/
def empty (standsAlone : Bool) : Doctype := ⟨[], [], false, standsAlone, true⟩

variable (d : Doctype)

/-- Whether an entity must be declared to be referred to. -/
def isStrict : Bool := !d.isOpen || d.standsAlone

/-- The document type when something outside may declare things. -/
def opened : Doctype := { d with isOpen := true }

/-- The document type behind a reference to the outside. -/
def interrupted : Doctype := { d with isOpen := true, counts := d.standsAlone }

/-- Declares an entity. -/
def addEntity (name : String) (value : EntityValue) : Doctype :=
  if d.counts && (d.entities.lookup name).isNone then
    { d with entities := d.entities ++ [(name, value)] }
  else d

/-- The rules for the elements of a name. -/
def rulesFor (element : QName) : List AttributeRule :=
  d.attributes.filter fun r ↦ r.element == element

/-- Declares an attribute. -/
def addRule (r : AttributeRule) : Doctype :=
  if d.counts && !((d.rulesFor r.element).any fun s ↦ s.name == r.name) then
    { d with attributes := d.attributes ++ [r] }
  else d

/-- The characters that pieces of the value of an attribute stand for. White space becomes blanks.
`within` are the entities whose texts are being read, `depth` is how many more may be. -/
def expand (depth : Nat) (within : List String) : List Piece → Option (List Char)
  | [] => some []
  | .char c :: rest => do
    let cs ← expand depth within rest
    some ((if isBlank c then ' ' else c) :: cs)
  | .referred c :: rest => do
    let cs ← expand depth within rest
    some (c :: cs)
  | .entity name :: rest =>
    match d.entities.lookup name with
    | none => if d.isStrict then none else expand depth within rest
    | some (.text value) =>
      if within.contains name || value.contains '<' then none
      else
        match depth with
        | 0 => none
        | depth + 1 => do
          let pieces ← pieces? value
          let first ← expand depth (name :: within) pieces
          let cs ← expand (depth + 1) within rest
          some (first ++ cs)
    | some _ => none
termination_by pieces => (depth, pieces.length)

/-- Words with one blank between them. -/
def collapse (cs : List Char) : List Char :=
  Text.joinWith ' ' ((Text.splitOn ' ' cs).filter fun word ↦ !word.isEmpty)

/-- The value of an attribute that is written in a given way. -/
def valueOf? (isText : Bool) (written : List Char) : Option (List Char) := do
  if written.contains '<' then none
  let pieces ← pieces? written
  let cs ← d.expand d.entities.length [] pieces
  some (if isText then cs else collapse cs)

end Doctype

end CommentScope.Xml
