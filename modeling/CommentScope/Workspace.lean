import CommentScope.FileReport
import CommentScope.Settings.Basic
import CommentScope.Sources.Discovery
import CommentScope.Sources.Project
import CommentScope.Sources.Solution

/-!
# Scanning files

A `Workspace` scans the files of a disk: single files, directories, projects and solutions. Each file
is scanned by itself. A file that cannot be read or scanned has a report that says why, and the other
files are scanned all the same (`scanFiles_eq_map`).
-/

namespace CommentScope

/-- What files are scanned with. -/
structure Workspace where
  disk : Disk
  scanner : Scanner
  /-- The largest size of a file that is found below a directory. -/
  sizeLimit : Int
  /-- How many files may be scanned at once. -/
  workers : Int

namespace Workspace

/-- A workspace for settings, which say what is wanted and how many files may be scanned at once unless
the caller does. A caller who asks for 0 at once leaves it to the settings. -/
def of? (disk : Disk) (registry : Registry FrontEnd) (settings : Settings)
    (accepts : Option Matcher) (workers : Int) : Except Markers.Fault Workspace := do
  let accepts ← match accepts with
    | some accepts => pure accepts
    | none => do
      let markers ← settings.markers?
      pure markers.accepts
  pure {
    disk, scanner := ⟨registry, accepts⟩, sizeLimit := settings.maxFileSize
    workers := if workers = 0 then settings.workerCount else workers }

variable (w : Workspace)

/-! ### Files -/

/-- The report on a file that could not be scanned. -/
def failure (path : String) (reason : String) : FileReport where
  path := path
  language := w.scanner.registry.languageFor? path
  hash := ""
  tree := none
  findings := []
  errors := [reason]

/-- The path that a file is reported under. -/
def reportedPath (path : String) (relative : Option String) : String :=
  match relative with
  | some r => if r.isEmpty then path else r
  | none => path

/-- Scans the file at a path. A file that cannot be read or scanned has a report that says why; only a
fault without words is passed on. -/
def scanFile? (path : String) (relative : Option String) : Except ScanFault FileReport :=
  let reported := reportedPath path relative
  match w.disk.read? path with
  | .error fault => .ok (w.failure reported fault.message)
  | .ok content =>
    let text := Utf8.fileText content
    match w.scanner.scanSource (some text) reported none (some (Sha256.hex content)) with
    | .ok report => .ok report
    | .error fault =>
      match fault.message with
      | some words => .ok (w.failure reported words)
      | none => .error fault

/-- The report on the file at a path. There always is one: no scan of a file has a fault without
words. -/
def scanFile (path : String) (relative : Option String) : FileReport :=
  match w.scanFile? path relative with
  | .ok report => report
  | .error _ => w.failure (reportedPath path relative) ""

/-- Scans a file that was found. -/
def scanFound (file : SourceFile) : FileReport :=
  w.scanFile file.location.text (some file.relative)

/-- Scans files. -/
def scanFiles (files : List SourceFile) : Except SourceFault (List FileReport) :=
  if files.isEmpty then .ok []
  else if w.workers ≤ 0 then .error .noWorkers
  else .ok (files.map w.scanFound)

/-- **The report on a file does not depend on the other files.** -/
theorem scanFiles_eq_map (files : List SourceFile) (h : 0 < w.workers) :
    w.scanFiles files = .ok (files.map w.scanFound) := by
  cases files with
  | nil => rfl
  | cons f fs => simp [scanFiles, Int.not_le.mpr h]

/-! ### Directories, projects and solutions -/

/-- Scans the files below a directory. -/
def scanDirectory (path : String) : Except SourceFault (List FileReport) := do
  let files ← Discovery.run w.scanner.registry w.sizeLimit w.disk path
  w.scanFiles files

/-- A source of a project, with its path from a directory. -/
def sourceFile (base l : Location) : SourceFile where
  relative := Location.wayText base l
  location := l
  size := match w.disk.find? l.text with
    | .ok (.file content) => content.size
    | _ => 0

/-- The directory of a file, to which the paths of its sources are relative. -/
def baseOf (path : String) : Except SourceFault Location := do
  let l ← (w.disk.resolve? (.ofText path)).mapError .loop
  pure l.dropLast

/-- Scans the sources of a project. -/
def scanProject (path : String) : Except SourceFault (List FileReport) := do
  let base ← w.baseOf path
  let sources ← Project.sources? w.disk path
  w.scanFiles (sources.map (w.sourceFile base))

/-- The sources of projects; those projects are left out that have a skippable fault. -/
def sourcesOfAll : List Location → Except SourceFault (List Location)
  | [] => .ok []
  | project :: projects =>
    match Project.sources? w.disk project.text with
    | .ok sources => do
      let more ← sourcesOfAll projects
      pure (sources ++ more)
    | .error fault => if fault.isSkippable then sourcesOfAll projects else .error fault

/-- Scans the sources of the projects of a solution, each of them once. -/
def scanSolution (path : String) : Except SourceFault (List FileReport) := do
  let base ← w.baseOf path
  let projects ← Solution.projects? w.disk path
  let sources ← w.sourcesOfAll projects
  -- Projects may share sources, so these are made distinct once more.
  w.scanFiles ((Project.distinct sources).map (w.sourceFile base))

/-- Scans what is at a path. -/
def scanPath (path : String) : Except SourceFault (List FileReport) := do
  let p := Path.ofText path
  if ← (w.disk.isDirectory? p.text).mapError .disk then w.scanDirectory path
  else if p.suffix == ".sln" then w.scanSolution path
  else if p.suffix == ".csproj" then w.scanProject path
  else pure [w.scanFile path (some path)]

/-- Scans what is at paths. -/
def scanPaths (paths : List String) : Except SourceFault (List FileReport) := do
  let reports ← paths.mapM w.scanPath
  pure reports.flatten

end Workspace

end CommentScope
