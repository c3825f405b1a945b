import CommentScope.Json.Basic
import CommentScope.Text.Hex

/-!
# Writing JSON

Values are written on one line (`Json.compact`) or with a line for each item and each member, each
level two blanks deeper than the one around it (`Json.pretty`). All characters outside ASCII are
written as escapes, those beyond the basic plane as a pair of surrogates.
-/

namespace CommentScope.Json

/-- The escape of a sixteen-bit unit. -/
def unitEscape (n : Nat) : List Char := '\\' :: 'u' :: Text.hexDigits 4 n

/-- A code point inside quotes. -/
def escaped (n : Nat) : List Char :=
  if n = 0x22 then ['\\', '"']
  else if n = 0x5C then ['\\', '\\']
  else if n = 0x08 then ['\\', 'b']
  else if n = 0x09 then ['\\', 't']
  else if n = 0x0A then ['\\', 'n']
  else if n = 0x0C then ['\\', 'f']
  else if n = 0x0D then ['\\', 'r']
  else if 0x20 ≤ n ∧ n < 0x7F then [Char.ofNat n]
  else if n < 0x10000 then unitEscape n
  else
    unitEscape (0xD800 + (n - 0x10000) / 0x400) ++ unitEscape (0xDC00 + (n - 0x10000) % 0x400)

/-- A sequence of code points in quotes. -/
def quotedPoints (points : List Nat) : String :=
  String.ofList ('"' :: (points.flatMap escaped ++ ['"']))

/-- Text in quotes. -/
def quoted (s : String) : String := quotedPoints (s.toList.map Char.toNat)

/-- How a value without parts is written; `none` for arrays and objects. -/
def scalar? : Json → Option String
  | .null => some "null"
  | .bool true => some "true"
  | .bool false => some "false"
  | .int n => some (toString n)
  | .decimal m e => some (toString m ++ "e" ++ toString e)
  | .notFinite => some "NaN"
  | .str s => some (quoted s)
  | .unpaired points => some (quotedPoints points)
  | .arr _ | .obj _ => none

mutual

/-- A value on one line. -/
def compact : Json → String
  | .arr items => "[" ++ ",".intercalate (compactItems items) ++ "]"
  | .obj members => "\x7b" ++ ",".intercalate (compactMembers members) ++ "\x7d"
  | j => (scalar? j).getD ""

/-- Items on one line. -/
def compactItems : List Json → List String
  | [] => []
  | j :: rest => compact j :: compactItems rest

/-- Members on one line. -/
def compactMembers : List (String × Json) → List String
  | [] => []
  | (name, j) :: rest => (quoted name ++ ":" ++ compact j) :: compactMembers rest

end

/-- A line break and the blanks of a level. -/
def newline (level : Nat) : String := "\n" ++ String.ofList (List.replicate (2 * level) ' ')

/-- Parts between brackets, each on a line of its own; nothing stands between the brackets if there
are no parts. -/
def bracketed (opening closing : String) (level : Nat) (parts : List String) : String :=
  if parts.isEmpty then opening ++ closing
  else
    opening ++ newline (level + 1) ++ ("," ++ newline (level + 1)).intercalate parts ++
      newline level ++ closing

mutual

/-- A value with a line for each part, at a level. -/
def prettyAt (level : Nat) : Json → String
  | .arr items => bracketed "[" "]" level (prettyItems (level + 1) items)
  | .obj members => bracketed "\x7b" "\x7d" level (prettyMembers (level + 1) members)
  | j => (scalar? j).getD ""

/-- Items at a level. -/
def prettyItems (level : Nat) : List Json → List String
  | [] => []
  | j :: rest => prettyAt level j :: prettyItems level rest

/-- Members at a level. -/
def prettyMembers (level : Nat) : List (String × Json) → List String
  | [] => []
  | (name, j) :: rest => (quoted name ++ ": " ++ prettyAt level j) :: prettyMembers level rest

end

/-- A value with a line for each part. -/
def pretty (j : Json) : String := prettyAt 0 j

end CommentScope.Json
