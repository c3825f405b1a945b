import CommentScope.Json.Basic
import CommentScope.Settings.Basic
import CommentScope.Text.Blank
import CommentScope.Text.Case
import CommentScope.Text.Search

/-!
# Values of settings

Values are read leniently: whole numbers and truth values may be written as text, and a number with
a fraction that is zero counts as whole. Text is never made from anything else.
-/

namespace CommentScope.Settings

/-! ### Whole numbers in text -/

/-- The sign in front of a number, and the text behind it; a second sign is not allowed. -/
def signOf : List Char → Option (Bool × List Char)
  | '-' :: rest => if rest.head? = some '+' then none else some (true, rest)
  | '+' :: rest => if rest.head? = some '-' then none else some (false, rest)
  | cs => some (false, cs)

/-- Drops zeros, and underscores between them, as long as a digit or a point with a digit before it
is left. `last` is the character before `cs`. -/
def dropZeros (last : Char) : List Char → Option (List Char)
  | [] => some [last]
  | c :: rest =>
    if c = '0' ∨ c = '_' then dropZeros c rest
    else if c.isDigit then some (c :: rest)
    else if c = '.' then some (last :: c :: rest)
    else none

/-- The digits of a number without its leading zeros. -/
def significant : List Char → Option (List Char)
  | [] => none
  | c :: rest =>
    if c = '0' then dropZeros c rest
    else if c.isDigit then some (c :: rest)
    else none

/-- Drops a point behind which there are only zeros. -/
def dropFraction (cs : List Char) : List Char :=
  match cs.dropWhile (· != '.') with
  | '.' :: zeros => if zeros.all (· == '0') then cs.takeWhile (· != '.') else cs
  | _ => cs

/-- Drops underscores if each of them stands between two other characters. -/
def dropUnderscores (cs : List Char) : List Char :=
  if cs.head? = some '_' ∨ cs.getLast? = some '_' ∨ Text.isInfix ['_', '_'] cs then cs
  else cs.filter (· != '_')

/-- The most digits that a number may have. -/
def maxDigits : Nat := 4300

/-- Reads a whole number. Blanks around it are ignored, digits may be grouped by underscores, and a
fraction of zeros is allowed. -/
def intOfText (text : String) : Except Issue.Kind Int :=
  match signOf (Text.trim Text.isWhite text.toList) with
  | none => .error .intParsing
  | some (negative, cs) =>
    match significant cs with
    | none => .error .intParsing
    | some cs =>
      let digits := dropUnderscores (dropFraction cs)
      if digits.isEmpty ∨ ¬ digits.all Char.isDigit then .error .intParsing
      else if digits.length > maxDigits then .error .intParsingSize
      else
        let n : Int := (digits.foldl (fun n c ↦ 10 * n + (c.toNat - 48)) 0 : Nat)
        .ok (if negative then -n else n)

/-! ### Reading values -/

/-- The largest exponent of ten that a finite number has. -/
def maxExponent : Int := 308

/-- Reads a number that was written with a fraction or an exponent. -/
def intOfDecimal (mantissa exponent : Int) : Except Issue.Kind Int :=
  -- The number of digits before the point, which shows the size without computing the power.
  let size : Int := (toString mantissa.natAbs).length + exponent
  if mantissa = 0 then .ok 0
  else if size > maxExponent + 1 then .error .finiteNumber
  else if 0 ≤ exponent then .ok (mantissa * Nat.pow 10 exponent.toNat)
  else if size ≤ 0 then .error .intFromFloat
  else
    let unit : Int := Nat.pow 10 (-exponent).toNat
    if mantissa % unit = 0 then .ok (mantissa / unit) else .error .intFromFloat

/-- Reads a whole number. -/
def int? : Json → Except Issue.Kind Int
  | .int n => .ok n
  | .bool b => .ok (if b then 1 else 0)
  | .decimal m e => intOfDecimal m e
  | .notFinite => .error .finiteNumber
  | .str s => intOfText s
  | .unpaired _ => .error .intParsing
  | .null | .arr _ | .obj _ => .error .intType

/-- The words for "no". -/
def falseWords : List String := ["0", "off", "f", "false", "n", "no"]

/-- The words for "yes". -/
def trueWords : List String := ["1", "on", "t", "true", "y", "yes"]

/-- Reads a truth value from a whole number. -/
def boolOfInt (n : Int) : Except Issue.Kind Bool :=
  if n = 0 then .ok false else if n = 1 then .ok true else .error .boolParsing

/-- Reads a truth value. Words are read in any case. -/
def bool? : Json → Except Issue.Kind Bool
  | .bool b => .ok b
  | .int n => boolOfInt n
  | .decimal m e =>
    match intOfDecimal m e with
    | .ok n => boolOfInt n
    | .error _ => .error .boolType
  | .str s =>
    let word := s.map Char.toLower
    if falseWords.contains word then .ok false
    else if trueWords.contains word then .ok true
    else .error .boolParsing
  | .unpaired _ => .error .boolParsing
  | .notFinite | .null | .arr _ | .obj _ => .error .boolType

/-- Reads text. -/
def text? : Json → Except Issue.Kind String
  | .str s => .ok s
  | _ => .error .stringType

/-- The issues with the items of a list of texts, the first of which has the given index. -/
def itemIssues (index : Nat) : List Json → List (Nat × Issue.Kind)
  | [] => []
  | j :: rest =>
    match text? j with
    | .ok _ => itemIssues (index + 1) rest
    | .error kind => (index, kind) :: itemIssues (index + 1) rest

/-- The texts among items. -/
def textsOf (items : List Json) : List String := items.filterMap fun j ↦ (text? j).toOption

/-- **A list without issues has only texts.** -/
theorem length_textsOf {items : List Json} {index : Nat} (h : itemIssues index items = []) :
    (textsOf items).length = items.length := by
  induction items generalizing index with
  | nil => rfl
  | cons j rest ih =>
    cases j <;> simp_all [itemIssues, textsOf, text?, Except.toOption]
    exact ih h

/-- The names of the log levels that can be set. -/
def levelNames : List String := ["DEBUG", "INFO", "WARNING", "ERROR", "CRITICAL"]

/-- Reads the name of a log level, in any case. -/
def level? (j : Json) : Except Issue.Kind String := do
  let name := Text.asciiUpper (← text? j)
  if levelNames.contains name then .ok name else .error .notAllowed

/-- Reads a number of workers, of which there must be one. -/
def workers? (j : Json) : Except Issue.Kind Int := do
  let n ← int? j
  if n < 1 then .error .notAllowed else .ok n

/-- The issue with the value of a setting. -/
def Issue.at (f : Field) (kind : Issue.Kind) : Issue := ⟨[.name f.name], kind⟩

/-- Assigns what was read, or reports what was wrong with it. -/
def assignRead {α : Type} (f : Field) (update : α → Settings) (value : Except Issue.Kind α) :
    Except (List Issue) Settings :=
  match value with
  | .ok a => .ok (update a)
  | .error kind => .error [.at f kind]

/-- Assigns a list of texts, or reports what was wrong with it. -/
def assignTexts (f : Field) (update : List String → Settings) :
    Json → Except (List Issue) Settings
  | .arr items =>
    match itemIssues 0 items with
    | [] => .ok (update (textsOf items))
    | issues => .error (issues.map fun (i, kind) ↦ ⟨[.name f.name, .index i], kind⟩)
  | _ => .error [.at f .listType]

/-- Gives a setting a value. -/
def assign (s : Settings) (f : Field) (j : Json) : Except (List Issue) Settings :=
  match f with
  | .appName => assignRead f (fun a ↦ { s with appName := a }) (text? j)
  | .debug => assignRead f (fun a ↦ { s with debug := a }) (bool? j)
  | .logLevel => assignRead f (fun a ↦ { s with logLevel := a }) (level? j)
  | .logJson => assignRead f (fun a ↦ { s with logJson := a }) (bool? j)
  | .host => assignRead f (fun a ↦ { s with host := a }) (text? j)
  | .port => assignRead f (fun a ↦ { s with port := a }) (int? j)
  | .workerCount => assignRead f (fun a ↦ { s with workerCount := a }) (workers? j)
  | .maxFileSize => assignRead f (fun a ↦ { s with maxFileSize := a }) (int? j)
  | .containsMarkers => assignTexts f (fun a ↦ { s with containsMarkers := a }) j
  | .suffixMarkers => assignTexts f (fun a ↦ { s with suffixMarkers := a }) j

end CommentScope.Settings
