import CommentScope.Disk.Walk
import CommentScope.Sources.Fault
import CommentScope.Text.Blank
import CommentScope.Xml.Document

/-!
# Projects

A project is an XML document whose `Compile` elements include and remove sources. A specification
lists paths and patterns with semicolons between them; they begin at the directory of the project. If
the root of the document names an SDK, all C# sources below that directory belong to the project too,
except those in directories for output.

A source that is removed anywhere in the document does not belong to the project, however it was
included, and no source belongs to it twice.
-/

namespace CommentScope.Project

/-! ### Specifications -/

/-- The paths and patterns of a specification. -/
def partsOf (specification : String) : List String :=
  ((Text.splitOn ';' specification.toList).map fun part ↦
    Path.withSlashes (String.ofList (Text.trim Text.isSpace part))).filter (· != "")

/-- Whether a part of a specification is a pattern. -/
def isPattern (part : String) : Bool := part.toList.any fun c ↦ c == '*' || c == '?'

variable (d : Disk) (directory : Path)

/-- Where a path leads, in the terms of faults of sources. -/
def resolve? (path : Path) : Except SourceFault Location := (d.resolve? path).mapError .loop

/-- The locations that a part of a specification stands for. Those of a pattern are sorted. -/
def expandPart? (part : String) : Except SourceFault (List Location) := do
  if isPattern part then
    let pattern ← (Glob.Pattern.ofText? part).mapError .pattern
    let found ← (pattern.select d directory).mapM fun found ↦ do
      let path ← found.mapError .disk
      resolve? d path
    pure (found.mergeSort Location.le)
  else
    let l ← resolve? d (directory.join (.ofText part))
    pure [l]

/-- The locations that a specification stands for. -/
def expand? (specification : String) : Except SourceFault (List Location) := do
  let found ← (partsOf specification).mapM (expandPart? d directory)
  pure found.flatten

/-! ### Items -/

/-- The name of the elements that include and remove sources. -/
def itemName : String := "Compile"

/-- The locations that an attribute of an element specifies. -/
def specified? (e : Xml.Element) (name : String) : Except SourceFault (List Location) :=
  match e.attribute? name with
  | some specification => expand? d directory specification
  | none => .ok []

/-- What an element includes and what it removes. -/
def items? (e : Xml.Element) : Except SourceFault (List Location × List Location) :=
  if e.name.base = itemName then do
    let included ← specified? d directory e "Include"
    let removed ← specified? d directory e "Remove"
    pure (included, removed)
  else .ok ([], [])

/-- Whether a name is that of a C# source. -/
def isSourceName (name : String) : Bool := ".cs".toList.isSuffixOf (Text.lower name).toList

/-- Whether a directory is gone into to find the sources of a project. -/
def enters (name : String) : Bool := !(["bin", "obj"].contains (Text.lower name))

/-- The C# sources below a directory, those of a directory before those of the directories in it. -/
def standardItems? : Except SourceFault (List Location) :=
  let ways := (d.filesBelow enters directory).filter fun way ↦ isSourceName (way.getLastD "")
  (ways.mergeSort Disk.filesFirst).mapM fun way ↦ resolve? d (directory.along way)

/-- Each location once, in the order of first appearance. -/
def distinct (locations : List Location) : List Location :=
  locations.foldl (fun seen l ↦ if seen.contains l then seen else seen ++ [l]) []

/-- Whether the sources below the directory of a project belong to it. -/
def hasSdk (document : Xml.Document) : Bool :=
  (document.root.attribute? "Sdk").any fun sdk ↦ !sdk.isEmpty

/-- The sources of the project that a document describes. -/
def sourcesOf? (document : Xml.Document) : Except SourceFault (List Location) := do
  let items ← document.elements.mapM (items? d directory)
  -- What is included by name has been resolved already; it may still begin with a link.
  let named ← (items.map Prod.fst).flatten.mapM fun l ↦ resolve? d ⟨"/", l⟩
  let standard ← if hasSdk document then standardItems? d directory else pure []
  let included := named ++ standard
  let removed := (items.map Prod.snd).flatten
  -- All of the document is read before anything is removed.
  pure (distinct (included.filter fun l ↦
    !removed.contains l && isSourceName (l.getLastD "")))

/-- The document of the project at a path. -/
def document? (path : String) : Except SourceFault Xml.Document := do
  let content ← (d.read? (Path.ofText path).text).mapError .disk
  match Xml.Document.read? content.toList with
  | .ok document => pure document
  | .error .malformed => throw (.malformedProject path)
  | .error (.unknownEncoding name) => throw (.unknownEncoding name)
  | .error (.unusableEncoding fault) => throw (.unusableEncoding fault)

/-- The sources of the project at a path. -/
def sources? (path : String) : Except SourceFault (List Location) := do
  let document ← document? d path
  sourcesOf? d (Path.ofText path).parent document

end CommentScope.Project
