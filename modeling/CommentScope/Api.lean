import CommentScope.Json.Printer
import CommentScope.Json.Reader
import CommentScope.Languages
import CommentScope.Settings.Basic

/-!
# Scanning on request

The HTTP interface: it tells that the service is alive, what it can scan, and scans a source text
that is sent to it. `Api.respond` answers a request. A request to scan is read as JSON
(`ScanRequest.ofBody?`), and all that is wrong with it is reported at once.
-/

namespace CommentScope.Api

/-- The version of the program. -/
def version : String := "0.1.0"

/-- The longest path that a request may give. -/
def maxPathLength : Nat := 1024

/-! ### Requests and answers -/

/-- What is asked for. -/
structure Request where
  method : String
  path : String
  body : String

/-- Something wrong with a request: where it is, its kind and its wording. -/
structure Issue where
  place : List Settings.Issue.Step
  kind : String
  message : String
  deriving DecidableEq

/-- The answer to a request. -/
inductive Outcome where
  | done (body : Json)
  /-- The request is not answered, for the reason given. -/
  | refused (status : Nat) (detail : String)
  /-- The request is not as it should be. -/
  | invalid (issues : List Issue)

/-- The status of an answer. -/
def Outcome.status : Outcome → Nat
  | .done _ => 200
  | .refused status _ => status
  | .invalid _ => 422

/-! ### Routes -/

/-- What can be asked for. -/
inductive Route where
  | health
  | live
  | languages
  | scan
  deriving DecidableEq

namespace Route

/-- All routes. -/
def all : List Route := [.health, .live, .scan, .languages]

/-- The path of a route. -/
def path : Route → String
  | .health => "/health"
  | .live => "/live"
  | .languages => "/api/v1/languages"
  | .scan => "/api/v1/comments/scan"

/-- The method that a route is asked for with. -/
def method : Route → String
  | .scan => "POST"
  | _ => "GET"

/-- The route at a path. A query is ignored, and so are slashes at the end. The slash at the start may
be left out. -/
def at? (path : String) : Option Route :=
  let plain := path.toList.takeWhile fun c ↦ c != '?' && c != '#'
  let trimmed := String.ofList (Text.trimRight (· == '/') plain)
  all.find? fun r ↦ r.path == trimmed || r.path == "/" ++ trimmed

theorem at?_path (r : Route) : at? r.path = some r := by
  cases r <;> decide +kernel

end Route

/-! ### Requests to scan -/

/-- The text of a body. A byte order mark at its start does not belong to it. -/
def bodyText (body : String) : List Char :=
  match body.toList with
  | c :: rest => if c = Utf8.byteOrderMark then rest else c :: rest
  | [] => []

/-- A request to scan a source text. -/
structure ScanRequest where
  /-- The source, or the code points of a text that is not one. -/
  source : Except (List Nat) String
  language : Option Language
  path : Option String

namespace ScanRequest

/-- An issue with a member of the body. -/
def issueAt (name : String) (kind message : String) : Issue :=
  ⟨[.name "body", .name name], kind, message⟩

/-- The issue with a member that is not text. -/
def notText (name : String) : Issue := issueAt name "string_type" "Input should be a valid string"

/-- The issue with text that has lone surrogates. -/
def notUnicode (name : String) : Issue :=
  issueAt name "string_unicode"
    "Input should be a valid string, unable to parse raw data as a unicode string"

/-- The issue with the name of a language that is not known. -/
def notLanguage : Issue :=
  issueAt "language" "enum" "Input should be 'csharp', 'java' or 'python'"

/-- The issue with a path that is too long. -/
def tooLong : Issue :=
  issueAt "file_path" "string_too_long"
    s!"String should have at most {maxPathLength} characters"

/-- The issue with a member that is missing. -/
def missing : Issue := issueAt "source_code" "missing" "Field required"

/-- The issue with a request that names neither a language nor a path. -/
def undetermined : Issue :=
  ⟨[.name "body"], "value_error", "Value error, either language or file_path is required"⟩

/-- The issue with a body that is no object. -/
def notObject : Issue :=
  ⟨[.name "body"], "model_attributes_type",
    "Input should be a valid dictionary or object to extract fields from"⟩

/-- The issue with a request that has no body. -/
def noBody : Issue := ⟨[.name "body"], "missing", "Field required"⟩

/-- The issue with a body that is not JSON. -/
def notJson (f : Json.Fault) : Issue :=
  ⟨[.name "body", .index f.position], "json_invalid", "JSON decode error"⟩

/-- Reads the source. -/
def sourceOf : Option Json → Except Issue (Except (List Nat) String)
  | none => .error missing
  | some (.str s) => .ok (.ok s)
  | some (.unpaired points) => .ok (.error points)
  | some _ => .error (notText "source_code")

/-- Reads the language. -/
def languageOf : Option Json → Except Issue (Option Language)
  | none | some .null => .ok none
  | some (.str s) =>
    match Language.ofName? s with
    | some l => .ok (some l)
    | none => .error notLanguage
  | some _ => .error notLanguage

/-- Reads the path. -/
def pathOf : Option Json → Except Issue (Option String)
  | none | some .null => .ok none
  | some (.str s) => if s.length ≤ maxPathLength then .ok (some s) else .error tooLong
  | some (.unpaired _) => .error (notUnicode "file_path")
  | some _ => .error (notText "file_path")

/-- What was wrong, if anything. -/
def issueOf {α : Type} : Except Issue α → List Issue
  | .ok _ => []
  | .error i => [i]

/-- Reads a request. -/
def ofJson? : Json → Except (List Issue) ScanRequest
  | .obj members =>
    let source := sourceOf (members.lookup "source_code")
    let language := languageOf (members.lookup "language")
    let path := pathOf (members.lookup "file_path")
    match source, language, path with
    | .ok source, .ok language, .ok path =>
      if language.isNone && path.all String.isEmpty then .error [undetermined]
      else .ok ⟨source, language, path⟩
    | source, language, path => .error (issueOf source ++ issueOf language ++ issueOf path)
  | _ => .error [notObject]

/-- The path of the request, or the one that stands for sources without path. -/
def reportedPath (r : ScanRequest) : String :=
  let standard := match r.language with
    | some .csharp => "source.cs"
    | some .java => "Source.java"
    | some .python => "source.py"
    | none => ""
  match r.path with
  | some path => if path.isEmpty then standard else path
  | none => standard

end ScanRequest

/-- The wording for a text with lone surrogates, none of which can be written as UTF-8: it names the
first one, or the first ones that stand side by side. -/
def unwritableMessage (points : List Nat) : String :=
  let lone (n : Nat) : Bool := Json.isHighSurrogate n || Json.isLowSurrogate n
  let start := (points.takeWhile fun n ↦ !lone n).length
  let run := (points.drop start).takeWhile lone
  match run with
  | [n] =>
    let escape := String.ofList (Json.unitEscape n)
    s!"'utf-8' codec can't encode character '{escape}' in position {start}: surrogates not allowed"
  | run =>
    let stop := start + run.length - 1
    s!"'utf-8' codec can't encode characters in position {start}-{stop}: surrogates not allowed"

/-! ### Answering -/

/-- What the service works with. -/
structure Service where
  registry : Registry FrontEnd
  settings : Settings

namespace Service

variable (s : Service)

/-- The names of the languages that can be scanned. -/
def languageNames : Json := .strs (s.registry.languages.map Language.name)

/-- A finding as it is sent. -/
def commentOf (d : Described) : Json :=
  .obj [("content", .str d.content), ("line", .nat d.line), ("member", .str? d.scopes.member),
    ("type", .str? d.scopes.type), ("namespace", .str? d.scopes.space)]

/-- A report as it is sent. -/
def reportOf (r : FileReport) (findings : List Described) : Json :=
  .obj [("file_path", .str r.path), ("language", .str? (r.language.map Language.name)),
    ("content_hash", .str r.hash), ("comments", .arr (findings.map commentOf)),
    ("total_comments", .nat findings.length), ("errors", .strs r.errors)]

/-- A scan that could not be done. -/
def failed : Option String → Outcome
  | some message => .refused 400 message
  | none => .refused 500 "Internal Server Error"

/-- Scans a source text. -/
def scan (m : Markers) (r : ScanRequest) : Outcome :=
  let scanner : Scanner := ⟨s.registry, m.accepts⟩
  match r.source with
  | .error points =>
    match scanner.languageOf r.reportedPath r.language >>= scanner.frontEndOf with
    | .error fault => failed fault.message
    | .ok _ => failed (some (unwritableMessage points))
  | .ok source =>
    match scanner.scanSource (some source) r.reportedPath r.language none with
    | .error fault => failed fault.message
    | .ok report =>
      match report.described? with
      | .error fault => failed fault.message
      | .ok findings => .done (reportOf report findings)

/-- Answers a request to scan. A body that is not JSON is refused before the markers are looked at,
and markers that are not allowed come before all else. -/
def answerScan (body : String) : Except Markers.Fault Outcome :=
  match Json.read? (bodyText body) with
  | .error f =>
    if body.isEmpty then do
      let _ ← s.settings.markers?
      pure (.invalid [ScanRequest.noBody])
    else if f.cause = .tooManyDigits then .ok (.refused 400 "There was an error parsing the body")
    else .ok (.invalid [ScanRequest.notJson f])
  | .ok j => do
    let m ← s.settings.markers?
    match ScanRequest.ofJson? j with
    | .error issues => pure (.invalid issues)
    | .ok r => pure (s.scan m r)

/-- Answers a request. -/
def respond (r : Request) : Except Markers.Fault Outcome :=
  match Route.at? r.path with
  | none => .ok (.refused 404 "Not Found")
  | some route =>
    if r.method ≠ route.method then .ok (.refused 405 "Method Not Allowed")
    else
      match route with
      | .health => .ok (.done (.obj [("status", .str "healthy"), ("version", .str version),
          ("languages", s.languageNames)]))
      | .live => .ok (.done (.obj [("alive", .bool true)]))
      | .languages => .ok (.done (.obj [("languages", s.languageNames),
          ("extensions", .strs s.registry.sortedExtensions)]))
      | .scan => s.answerScan r.body

end Service

end CommentScope.Api
