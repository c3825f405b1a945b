import CommentScope.Keyed
import CommentScope.Text.Blank
import CommentScope.Text.Newline
import CommentScope.Text.Search

/-!
# Files of variables

A file of variables has one binding `NAME=value` on a line, perhaps behind the word `export`. Names
and values may be quoted; a quoted value may run over several lines and has escapes. A number sign
begins a comment, in an unquoted value only behind a blank. A name without an equals sign is
bound to nothing. A line that is none of this is skipped.

Behind the reading, `${NAME}` in a value stands for the value of a variable, and `${NAME:-text}` for
that or, if there is no such variable, for the text. Bindings further up in the file come before the
environment.
-/

namespace CommentScope.EnvFile

/-- A name with its value, if it has one. -/
abbrev Binding := String × Option String

/-- Cuts a text at the first quote that has no backslash before it. -/
def splitAtQuote (quote : Char) : List Char → Option (List Char × List Char)
  | [] => none
  | c :: rest =>
    if c = quote then some ([], rest)
    else
      match c, rest with
      | '\\', d :: more =>
        if d = quote then (splitAtQuote quote more).map fun (l, r) ↦ ('\\' :: d :: l, r)
        else (splitAtQuote quote (d :: more)).map fun (l, r) ↦ (c :: l, r)
      | c, rest => (splitAtQuote quote rest).map fun (l, r) ↦ (c :: l, r)

/-- Cuts a text at the last occurrence of a quote. -/
def splitAtLastQuote (quote : Char) : List Char → Option (List Char × List Char)
  | [] => none
  | c :: rest =>
    match splitAtLastQuote quote rest with
    | some (l, r) => some (c :: l, r)
    | none => if c = quote then some ([], rest) else none

/-- The text before the closing quote and the text behind it. The closing quote is the first that is
not escaped; if all are escaped it is the last. -/
def splitQuoted (quote : Char) (cs : List Char) : Option (List Char × List Char) :=
  splitAtQuote quote cs <|> splitAtLastQuote quote cs

/-- What an escape between double quotes stands for. -/
def escape? : Char → Option Char
  | '\\' => some '\\'
  | '\'' => some '\''
  | '"' => some '"'
  | 'a' => some '\x07'
  | 'b' => some '\x08'
  | 'f' => some '\x0c'
  | 'n' => some '\n'
  | 'r' => some '\r'
  | 't' => some '\t'
  | 'v' => some '\x0b'
  | _ => none

/-- What an escape between single quotes stands for. -/
def singleEscape? : Char → Option Char
  | '\\' => some '\\'
  | '\'' => some '\''
  | _ => none

/-- Replaces escapes; a backslash before anything else stands for itself. -/
def unescape (escape? : Char → Option Char) : List Char → List Char
  | '\\' :: c :: rest =>
    match escape? c with
    | some d => d :: unescape escape? rest
    | none => '\\' :: unescape escape? (c :: rest)
  | c :: rest => c :: unescape escape? rest
  | [] => []

/-- The text up to a comment. -/
def beforeComment : List Char → List Char
  | [] => []
  | c :: rest =>
    if Text.isSpace c && (rest.dropWhile Text.isSpace).head? == some '#' then []
    else c :: beforeComment rest

/-- Whether a character is within a line. -/
def inLine (c : Char) : Bool := c != '\n'

/-- Reads a value. As for every part of a binding, the result is what was read and the text behind it,
or the text at which it could not be read. -/
def value : List Char → Except (List Char) (List Char × List Char)
  | [] => .ok ([], [])
  | c :: rest =>
    if c = '\'' then
      match splitQuoted c rest with
      | some (l, r) => .ok (unescape singleEscape? l, r)
      | none => .error (c :: rest)
    else if c = '"' then
      match splitQuoted c rest with
      | some (l, r) => .ok (unescape escape? l, r)
      | none => .error (c :: rest)
    else if c = '\n' then .ok ([], c :: rest)
    else
      let line := (c :: rest).takeWhile inLine
      .ok (Text.trimRight Text.isSpace (beforeComment line), (c :: rest).dropWhile inLine)

/-- Whether a character may stand in a name without quotes. -/
def isNameChar (c : Char) : Bool := c != '=' && c != '#' && !Text.isSpace c

/-- Reads a name; where there is a comment instead there is none. -/
def name : List Char → Except (List Char) (Option (List Char) × List Char)
  | [] => .error []
  | c :: rest =>
    if c = '#' then .ok (none, c :: rest)
    else if c = '\'' then
      let quoted := rest.takeWhile (· != '\'')
      match rest.dropWhile (· != '\'') with
      | _ :: behind => if quoted.isEmpty then .error (c :: rest) else .ok (some quoted, behind)
      | [] => .error (c :: rest)
    else
      let key := (c :: rest).takeWhile isNameChar
      if key.isEmpty then .error (c :: rest)
      else .ok (some key, (c :: rest).dropWhile isNameChar)

/-- Drops the word `export` and the blanks behind it. -/
def dropExport (cs : List Char) : List Char :=
  let word := "export".toList
  let rest := cs.drop word.length
  if word.isPrefixOf cs && rest.head?.any Text.isInlineSpace then rest.dropWhile Text.isInlineSpace
  else cs

/-- Drops a comment. -/
def dropComment (cs : List Char) : List Char :=
  match cs.dropWhile Text.isInlineSpace with
  | '#' :: rest => rest.dropWhile inLine
  | _ => cs

/-- Drops the end of a line, blanks before it included. -/
def endLine (cs : List Char) : Except (List Char) (List Char) :=
  match cs.dropWhile Text.isInlineSpace with
  | [] => .ok []
  | c :: rest => if c = '\n' then .ok rest else .error cs

/-- Reads a binding to the end of its line. -/
def binding (cs : List Char) : Except (List Char) (Option Binding × List Char) := do
  let (key, rest) ← name (dropExport cs)
  let rest := rest.dropWhile Text.isInlineSpace
  let (bound, rest) ← match rest with
    | '=' :: more => do
      let (v, rest) ← value (more.dropWhile Text.isInlineSpace)
      pure (some v, rest)
    | rest => pure (none, rest)
  let rest ← endLine (dropComment rest)
  pure (key.map fun key ↦ (String.ofList key, bound.map String.ofList), rest)

/-- The next binding and the text behind it. -/
def next (cs : List Char) : Option Binding × List Char :=
  match cs.dropWhile Text.isSpace with
  | [] => (none, [])
  | cs =>
    match binding cs with
    | .ok (b, rest) => (b, rest)
    | .error rest => (none, (rest.dropWhile inLine).drop 1)

/-- The bindings of a text. -/
def bindings (cs : List Char) : List Binding :=
  let (b, rest) := next cs
  if _h : rest.length < cs.length then b.toList ++ bindings rest else b.toList
termination_by cs.length

/-! ### Variables in values -/

/-- A variable at the start of a text, behind the dollar sign: its name, the text for the case that
there is none, and what stands behind it. -/
def reference? : List Char → Option (String × String × List Char)
  | '\x7b' :: rest =>
    let isName (c : Char) : Bool := c != '\x7d' && c != ':'
    let key := String.ofList (rest.takeWhile isName)
    match rest.dropWhile isName with
    | '\x7d' :: behind => some (key, "", behind)
    | ':' :: '-' :: more =>
      match more.dropWhile (· != '\x7d') with
      | _ :: behind => some (key, String.ofList (more.takeWhile (· != '\x7d')), behind)
      | [] => none
    | _ => none
  | _ => none

/-- Replaces the variables in a text; `known` gives their values. -/
def expand (known : String → Option (Option String)) (cs : List Char) : List Char :=
  match cs with
  | [] => []
  | c :: rest =>
    match if c = '$' then reference? rest else none with
    | some (key, fallback, behind) =>
      let value := match known key with
        | some (some v) => v
        | some none => ""
        | none => fallback
      if behind.length ≤ rest.length then value.toList ++ expand known behind
      else value.toList
    | none => c :: expand known rest
termination_by cs.length
decreasing_by
  · exact Nat.lt_succ_of_le ‹_›
  · exact Nat.lt_succ_self _

/-- Replaces the variables in the values of bindings, from the first to the last. -/
def expandAll (environment : List (String × String)) (bindings : List Binding) : List Binding :=
  bindings.foldl (fun done (key, value) ↦
    let known (k : String) : Option (Option String) :=
      match done.lookup k with
      | some v => some v
      | none => (environment.lookup k).map some
    Keyed.put key (value.map fun v ↦ String.ofList (expand known v.toList)) done) []

/-- The variables of a file, each once. -/
def read (environment : List (String × String)) (text : String) : List Binding :=
  expandAll environment (bindings (Text.Newline.unify text.toList))

end CommentScope.EnvFile
