import CommentScope.Sources.Fault
import CommentScope.Text.Newline
import CommentScope.Text.Utf8
import CommentScope.Text.Word

/-!
# Solutions

A solution names projects, each with an entry on one line:

    Project("\{type\}") = "name", "path", "\{project\}"

where type and project are written as five groups of word characters. Of these, the entries count
whose path ends in `.csproj`. The name ends at the first place behind which the rest of an entry can
be read, and so does the path.
-/

namespace CommentScope.Solution

/-! ### Entries -/

/-- The rest of a text behind a given start. -/
def behind? (start : String) (cs : List Char) : Option (List Char) :=
  if start.toList.isPrefixOf cs then some (cs.drop start.length) else none

/-- The rest of a text behind some word characters. -/
def behindWord? : (count : Nat) → List Char → Option (List Char)
  | 0, cs => some cs
  | _ + 1, [] => none
  | count + 1, c :: cs => if Text.isWordChar c then behindWord? count cs else none

/-- The rest of a text behind groups of word characters with hyphens between them. -/
def behindGroups? : List Nat → List Char → Option (List Char)
  | [], cs => some cs
  | [count], cs => behindWord? count cs
  | count :: counts, cs => do
    let cs ← behindWord? count cs
    let cs ← behind? "-" cs
    behindGroups? counts cs

/-- The rest of a text behind an identifier. -/
def behindId? (cs : List Char) : Option (List Char) := behindGroups? [8, 4, 4, 4, 12] cs

/-- The rest of a text behind the start of an entry, up to its name. -/
def behindStart? (cs : List Char) : Option (List Char) := do
  let cs ← behind? "Project(\"\x7b" cs
  let cs ← behindId? cs
  behind? "\x7d\") = \"" cs

/-- The rest of a text behind the end of an entry, from its path on. -/
def behindEnd? (cs : List Char) : Option (List Char) := do
  let cs ← behind? "\", \"\x7b" cs
  let cs ← behindId? cs
  behind? "\x7d\"" cs

/-- How the path of a project ends. -/
def projectSuffix : String := ".csproj"

/-- The path at the start of a text, and what is behind its entry. -/
def path? : List Char → Option (List Char × List Char)
  | [] => none
  | c :: cs =>
    match behind? projectSuffix (c :: cs) >>= behindEnd? with
    | some rest => some (projectSuffix.toList, rest)
    | none => (path? cs).map fun (path, rest) ↦ (c :: path, rest)

/-- The path behind the name at the start of a text, and what is behind its entry. -/
def pathBehindName? : List Char → Option (List Char × List Char)
  | [] => none
  | c :: cs =>
    match behind? "\", \"" (c :: cs) >>= path? with
    | some found => some found
    | none => pathBehindName? cs

/-- The path of the entry at the start of a text, and what is behind the entry. -/
def entry? (cs : List Char) : Option (List Char × List Char) :=
  behindStart? cs >>= pathBehindName?

/-- The paths of the entries on a line; `skip` characters belong to the entry before. -/
def pathsFrom (skip : Nat) : List Char → List String
  | [] => []
  | c :: cs =>
    match skip with
    | skip + 1 => pathsFrom skip cs
    | 0 =>
      match entry? (c :: cs) with
      | some (path, rest) => String.ofList path :: pathsFrom (cs.length - rest.length) cs
      | none => pathsFrom 0 cs

/-- The paths of the projects that the text of a solution names. -/
def paths (text : List Char) : List String := (Text.splitOn '\n' text).flatMap (pathsFrom 0)

/-! ### Projects -/

/-- The text of a file, with line feeds for all line ends. -/
def textOf (content : ByteArray) : List Char :=
  Text.Newline.unify (Utf8.fileText content).toList

variable (d : Disk)

/-- Where the project of an entry is, whose path begins at the directory of the solution. The text of
a solution may hold a NUL, which no path has. -/
def projectAt? (directory : Path) (entry : String) : Except SourceFault Location :=
  if '\x00' ∈ entry.toList then .error .nulInPath
  else (d.resolve? (directory.join (.ofText (Path.withSlashes entry)))).mapError .loop

/-- Where the projects of a solution are. -/
def projects? (path : String) : Except SourceFault (List Location) := do
  let file := Path.ofText path
  let content ← (d.read? file.text).mapError .disk
  (paths (textOf content)).mapM (projectAt? d file.parent)

end CommentScope.Solution
