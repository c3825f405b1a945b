import CommentScope.Xml.Scan

/-!
# The declaration of a document

A document may begin with a declaration of its version, its encoding and whether it stands alone, in
this order. Only the version must be there.
-/

namespace CommentScope.Xml

/-- What a document declares of itself. -/
structure Declaration where
  encoding : Option String
  standsAlone : Bool
  deriving DecidableEq

namespace Declaration

/-- The declaration of a document that has none. -/
def standard : Declaration := ⟨none, false⟩

/-- Whether a character may stand in a declared value. -/
def isValueChar (c : Char) : Bool := c.isAlphanum || c == '.' || c == '-' || c == '_'

/-- Takes a name and a value, which must come after white space. -/
def entry : Scan (String × String) := do
  if !(← Scan.blanks) then failure
  let name ← Scan.run fun c ↦ c.isAlpha
  let _ ← Scan.blanks
  Scan.word "="
  let _ ← Scan.blanks
  let value ← Scan.quoted
  if !value.all isValueChar then failure
  pure (String.ofList name, String.ofList value)

/-- Takes entries as long as there are any. -/
def entries : (fuel : Nat) → Scan (List (String × String))
  | 0 => failure
  | fuel + 1 => do
    let text ← get
    if (text.dropWhile isBlank).isEmpty then pure []
    else
      let first ← entry
      let rest ← entries fuel
      pure (first :: rest)

/-- What entries say, if they are what a declaration may have. -/
def ofEntries? : List (String × String) → Option Declaration
  | ("version", _) :: rest => do
    let (encoding, rest) ← match rest with
      | ("encoding", name) :: rest =>
        if name.toList.head?.any Char.isAlpha then some (some name, rest) else none
      | rest => some (none, rest)
    match rest with
    | [] => some ⟨encoding, false⟩
    | [("standalone", "yes")] => some ⟨encoding, true⟩
    | [("standalone", "no")] => some ⟨encoding, false⟩
    | _ => none
  | _ => none

/-- How a declaration begins. -/
def opening : List Char := "<?xml".toList

/-- The declaration at the start of a text, and the text behind it. A text that begins otherwise has
the standard one. -/
def read? (text : List Char) : Option (Declaration × List Char) :=
  let rest := text.drop opening.length
  if opening.isPrefixOf text && !rest.head?.any isNameChar then do
    let n ← Text.find? "?>".toList rest
    let entries ← (entries 4).run' (rest.take n)
    let d ← ofEntries? entries
    some (d, rest.drop (n + 2))
  else some (standard, text)

end Declaration

end CommentScope.Xml
