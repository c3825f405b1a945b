import CommentScope.FileReport
import CommentScope.Json.Printer

/-!
# Reports on the console

The findings of a scan are printed as blocks of lines or as one JSON array. Sequences that would
control a terminal are taken out of every text that is printed.
-/

namespace CommentScope.Cli

/-! ### Terminal sequences -/

/-- Whether a character may stand within a terminal sequence. -/
def isParameter (c : Char) : Bool := c == ';' || c == '?' || c.isDigit

/-- The length of the terminal sequence behind an escape character, if there is one. -/
def sequenceLength? : List Char → Option Nat
  | '[' :: cs =>
    let parameters := (cs.takeWhile isParameter).length
    match cs.drop parameters with
    | c :: _ => if c.isAlpha then some (parameters + 2) else none
    | [] => none
  | _ => none

/-- Takes out terminal sequences; `skip` characters belong to the one before. -/
def withoutSequences (skip : Nat) : List Char → List Char
  | [] => []
  | c :: cs =>
    match skip with
    | skip + 1 => withoutSequences skip cs
    | 0 =>
      match if c = '\x1b' then sequenceLength? cs else none with
      | some n => withoutSequences n cs
      | none => c :: withoutSequences 0 cs

/-- A line as it is printed. -/
def line (text : String) : String := String.ofList (withoutSequences 0 text.toList) ++ "\n"

/-! ### Findings -/

/-- A finding and the path of its file. -/
structure Item where
  path : String
  finding : Described
  deriving DecidableEq

/-- All findings of reports. -/
def items? (reports : List FileReport) : Except FileReport.Fault (List Item) := do
  let items ← reports.mapM fun r ↦ do
    let findings ← r.described?
    pure (findings.map fun finding ↦ Item.mk r.path finding)
  pure items.flatten

namespace Item

/-- A finding as JSON. -/
def json (i : Item) : Json :=
  .obj [("path", .str i.path), ("line", .nat i.finding.line), ("content", .str i.finding.content),
    ("namespace", .str? i.finding.scopes.space), ("type", .str? i.finding.scopes.type),
    ("member", .str? i.finding.scopes.member)]

/-- The lines about a finding. Lines of files are counted from 1 here. -/
def lines (i : Item) : List String :=
  let space := match i.finding.scopes.space with
    | none => "Not in any namespace"
    | some name => s!"Namespace: {name}"
  let type := i.finding.scopes.type.map fun name ↦ s!"Type: {name}"
  let member := i.finding.scopes.member.map fun name ↦ s!"Method/Property: {name}"
  [i.finding.content, "", space] ++ type.toList ++ member.toList ++
    [s!"{i.path}:{i.finding.line + 1}", ""]

end Item

/-- The findings as blocks of lines. -/
def plainReport (items : List Item) : String :=
  String.join ((items.flatMap Item.lines).map line)

/-- The findings as JSON. -/
def jsonReport (items : List Item) : String := line (Json.arr (items.map Item.json)).pretty

/-- What is said about the files that could not be scanned. -/
def failureReport (reports : List FileReport) : String :=
  String.join ((reports.filter fun r ↦ r.tree.isNone).map fun r ↦
    line (r.path ++ ": " ++ "; ".intercalate r.errors))

end CommentScope.Cli
