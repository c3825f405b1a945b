import CommentScope.Keyed

/-!
# JSON values

Members of an object keep the order in which they were written; a name that is written again has its
last value at its first place. Numbers are exact. Text is a sequence of code points that may hold a
surrogate without its partner; such text is not a `String` and is kept as it is.
-/

namespace CommentScope

/-- A JSON value. -/
inductive Json where
  | null
  | bool (value : Bool)
  | int (value : Int)
  /-- A number written with a fraction or an exponent: `mantissa` times ten to the `exponent`. -/
  | decimal (mantissa exponent : Int)
  /-- A number that is infinite or undefined. -/
  | notFinite
  | str (text : String)
  /-- Text with a surrogate that has no partner, by its code points. -/
  | unpaired (codePoints : List Nat)
  | arr (items : List Json)
  | obj (members : List (String × Json))
  deriving Inhabited

namespace Json

/-- The object with the given members. -/
def ofMembers (members : List (String × Json)) : Json := .obj (Keyed.ofList members)

/-- The value of a member; `none` if there is no such member or the value is no object. -/
def member? (name : String) : Json → Option Json
  | .obj members => members.lookup name
  | _ => none

/-- A natural number as a value. -/
def nat (n : Nat) : Json := .int n

/-- Text that may be missing. -/
def str? : Option String → Json
  | none => .null
  | some s => .str s

/-- A list of texts. -/
def strs (l : List String) : Json := .arr (l.map .str)

/-- Whether the value is `null`. -/
def isNull : Json → Bool
  | .null => true
  | _ => false

end Json

end CommentScope
