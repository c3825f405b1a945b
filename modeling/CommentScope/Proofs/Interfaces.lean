import CommentScope.Cli.Run
import CommentScope.Proofs.DiskPaths
import CommentScope.Proofs.PrintedText
import CommentScope.Proofs.Reports

/-!
# Both interfaces give the same answer

A source can be sent to the service or stand in a file that the command line is given. Both ways
lead to one scan: the text that was sent is what is read from the bytes of the file
(`Shared.scanContent_eq`), and the digest that the command line takes of them is the one that the
service takes of the text (`Scanner.scanSource_digest`). **The answers agree** (`answers_agree`):
the same findings in the same order, or the same reason why the source cannot be scanned.

The service sends the reason as it is, and the command line prints it without terminal escape
sequences, which can come in with the path (`answers_agree_stripped`).
-/

namespace CommentScope

open Outcome

namespace Scanner

variable {s : Scanner} {source path : String} {language : Option Language} {r : FileReport}

/-- The digest of a text need not be given. -/
theorem scanSource_digest (s : Scanner) (source path : String) (language : Option Language) :
    s.scanSource (some source) path language (some (Sha256.hex source.toUTF8)) =
      s.scanSource (some source) path language none := by
  have hne : (Sha256.hex source.toUTF8).isEmpty = false := by
    rw [Bool.eq_false_iff]
    exact fun h ↦ Sha256.hex_ne_empty _ (String.isEmpty_iff.1 h)
  simp only [scanSource, hne]
  rfl

/-- What a scan reports can be described. -/
theorem exists_described? (h : s.scanSource (some source) path language none = .ok r) :
    r.path = path ∧ r.hash = Sha256.hex source.toUTF8 ∧ r.tree ≠ none ∧
      ∃ found, r.described? = .ok found := by
  obtain ⟨l, -, h⟩ := bind_eq_ok_iff.1 h
  obtain ⟨frontEnd, -, h⟩ := bind_eq_ok_iff.1 h
  obtain ⟨t, -, h⟩ := bind_eq_ok_iff.1 h
  obtain ⟨found, hfound, h⟩ := bind_eq_ok_iff.1 h
  cases h
  refine ⟨rfl, rfl, Option.some_ne_none t, exists_mapM_eq_ok fun f hf ↦ ?_⟩
  obtain ⟨d, hd⟩ := (Tree.knows_of_findings? (mapError_eq_ok_iff.1 hfound) hf).exists_describe?
  exact ⟨d, mapError_eq_ok_iff.2 hd⟩

/-- The reason why a text cannot be scanned has no escape character if the path has none. -/
theorem escape_not_mem_words {fault : ScanFault} {words : String} (hpath : '\x1b' ∉ path.toList)
    (h : s.scanSource (some source) path language none = .error fault)
    (hwords : fault.message = some words) : '\x1b' ∉ words.toList := by
  rcases fault_of_scanSource h with rfl | ⟨l, rfl⟩ | ⟨f, rfl⟩
  · cases hwords
    have hstart : '\x1b' ∉ "Unsupported file type: ".toList := by decide
    rw [String.toList_append, List.mem_append, not_or]
    exact ⟨hstart, hpath⟩
  · cases hwords
    cases l <;> decide
  · cases hwords
    cases f <;> decide

end Scanner

/-- Whether a path is one that both interfaces take for the path of a single source. -/
structure NamesSource (path : String) : Prop where
  ne_empty : path ≠ ""
  length_le : path.length ≤ Api.maxPathLength
  relative : path.toList.head? ≠ some '/'
  noFlag : path.toList.head? ≠ some '-'
  noSolution : ¬ Path.HasEnding path ".sln"
  noProject : ¬ Path.HasEnding path ".csproj"

section

variable {registry : Registry FrontEnd} {settings : Settings} {m : Markers} {disk : Disk}
  {source path body : String} {content : ByteArray}

/-! ### On request -/

namespace Api

/-- Whether a body asks for the scan of a source under a path, without a language. -/
def Asks (body source path : String) : Prop :=
  ∃ members, Json.read? (bodyText body) = .ok (.obj members) ∧
    members.lookup "source_code" = some (.str source) ∧
    members.lookup "file_path" = some (.str path) ∧
    (members.lookup "language" = none ∨ members.lookup "language" = some .null)

theorem ScanRequest.ofJson?_eq {members : List (String × Json)} (hpath : NamesSource path)
    (hsource : members.lookup "source_code" = some (.str source))
    (hfile : members.lookup "file_path" = some (.str path))
    (hlanguage : members.lookup "language" = none ∨ members.lookup "language" = some .null) :
    ScanRequest.ofJson? (.obj members) = .ok ⟨.ok source, none, some path⟩ := by
  have hlang : ScanRequest.languageOf (members.lookup "language") = .ok none := by
    rcases hlanguage with h | h <;> rw [h] <;> rfl
  have hempty : path.isEmpty = false := by
    rw [Bool.eq_false_iff]
    exact fun h ↦ hpath.ne_empty (String.isEmpty_iff.1 h)
  have hpathof : ScanRequest.pathOf (some (.str path)) = .ok (some path) := if_pos hpath.length_le
  simp only [ofJson?, hsource, hfile, hlang, hpathof, sourceOf]
  simp [hempty]

theorem ScanRequest.reportedPath_eq {source : Except (List Nat) String}
    {language : Option Language} (hpath : path ≠ "") :
    (ScanRequest.mk source language (some path)).reportedPath = path :=
  if_neg fun h ↦ hpath (String.isEmpty_iff.1 h)

/-- A scan that has findings is answered with them. -/
theorem Service.scan_found {s : Service} {r : FileReport} {found : List Described}
    (hpath : path ≠ "")
    (hscan : (Scanner.mk s.registry m.accepts).scanSource (some source) path none none = .ok r)
    (hfound : r.described? = .ok found) :
    s.scan m ⟨.ok source, none, some path⟩ = .done (reportOf r found) := by
  simp only [scan, ScanRequest.reportedPath_eq hpath, hscan, hfound]

/-- A scan that could not be done is answered with the reason. -/
theorem Service.scan_refused {s : Service} {fault : ScanFault} {words : String} (hpath : path ≠ "")
    (hscan : (Scanner.mk s.registry m.accepts).scanSource (some source) path none none =
      .error fault) (hwords : fault.message = some words) :
    s.scan m ⟨.ok source, none, some path⟩ = .refused 400 words := by
  simp only [scan, ScanRequest.reportedPath_eq hpath, hscan, hwords]
  rfl

/-- A request that asks for the scan of a source is answered with the scan. -/
theorem Service.respond_scan (hmarkers : settings.markers? = .ok m) (hpath : NamesSource path)
    (hbody : Asks body source path) :
    (Service.mk registry settings).respond ⟨"POST", Route.scan.path, body⟩ =
      .ok ((Service.mk registry settings).scan m ⟨.ok source, none, some path⟩) := by
  obtain ⟨members, hread, hsource, hfile, hlanguage⟩ := hbody
  have hrequest := ScanRequest.ofJson?_eq hpath hsource hfile hlanguage
  rw [respond, Route.at?_path]
  show (Service.mk registry settings).answerScan body = _
  rw [answerScan, hread]
  show (settings.markers? >>= fun m ↦ _) = _
  rw [hmarkers]
  refine bind_eq_ok_iff.2 ⟨m, rfl, ?_⟩
  rw [hrequest]
  rfl

end Api

/-! ### On the command line -/

namespace Workspace

variable {w : Workspace}

/-- A path to a single source is scanned as a file. -/
theorem scanPaths_file (hpath : NamesSource path)
    (hfile : w.disk.find? path = .ok (.file content)) :
    w.scanPaths [path] = .ok [w.scanFile path (some path)] := by
  have hdir : w.disk.isDirectory? (Path.ofText path).text = .ok false := by
    rw [Disk.isDirectory?, Disk.find?_text hpath.relative hfile]
  have hending := Disk.hasEnding_suffix hfile
  have hsolution : ((Path.ofText path).suffix == ".sln") = false := by
    rw [beq_eq_false_iff_ne]
    intro h
    exact hpath.noSolution (h ▸ hending)
  have hproject : ((Path.ofText path).suffix == ".csproj") = false := by
    rw [beq_eq_false_iff_ne]
    intro h
    exact hpath.noProject (h ▸ hending)
  have hscan : w.scanPath path = .ok [w.scanFile path (some path)] := by
    rw [scanPath]
    simp only [hdir, hsolution, hproject]
    rfl
  rw [scanPaths, List.mapM_cons, hscan]
  rfl

end Workspace

namespace Cli

/-- A path that does not begin with a hyphen is no flag. -/
theorem isFlags_eq_false (h : path.toList.head? ≠ some '-') : isFlags path = false := by
  have hstart : path.startsWith "-" = false := by
    rw [String.startsWith_string_eq_false_iff]
    rintro ⟨rest, hrest⟩
    rw [← hrest] at h
    exact h rfl
  rw [isFlags, hstart]
  rfl

theorem ne_dashes (h : path.toList.head? ≠ some '-') : path ≠ "--" := by
  rintro rfl
  exact h (by decide)

theorem separate?_path (h : path.toList.head? ≠ some '-') :
    separate? Command.scan.flags false [path] = .ok ([], [path]) := by
  rw [separate?, if_neg (ne_dashes h), isFlags_eq_false h]
  rfl

theorem separate?_json (h : path.toList.head? ≠ some '-') :
    separate? Command.scan.flags false ["--json", path] = .ok ([.json], [path]) := by
  have hflag : flagsOf? Command.scan.flags "--json" = .ok [.json] := by
    rw [flagsOf?, String.contains_char_eq]
    decide +kernel
  have hisflags : isFlags "--json" = true := by decide +kernel
  rw [separate?, if_neg (by decide), hisflags, hflag, separate?_path h]
  rfl

/-- The command to scan is run with the settings. -/
theorem runWith_scan (registry : Registry FrontEnd) (disk : Disk) (settings : Settings)
    (args : List String) :
    runWith registry disk (.ok settings) (scanName :: args) =
      runScan registry disk settings args := by
  have hname : isFlags scanName = false := by decide +kernel
  have hseparate : separate? Command.main.flags true (scanName :: args) =
      .ok ([], scanName :: args) := by
    rw [separate?, if_neg (by decide), hname]
    rfl
  rw [runWith, hseparate]
  rfl

theorem runScan_paths {flags : List Flag} {args : List String}
    (hargs : separate? Command.scan.flags false args = .ok (flags, [path]))
    (hflags : information? .scan flags = none) (hfile : disk.find? path = .ok (.file content)) :
    runScan registry disk settings args = scanPaths registry disk settings flags [path] := by
  have hleads : disk.leads path = true := by
    rw [Disk.leads, hfile]
    rfl
  rw [runScan, hargs]
  simp only [hflags]
  have hfound : [path].find? (fun p ↦ !disk.leads p) = none := by simp [hleads]
  rw [hfound]
  rfl

/-- A scan that has findings is reported on with them. -/
theorem report_described {r : FileReport} {found : List Described} (flags : List Flag)
    (htree : r.tree ≠ none) (h : r.described? = .ok found) :
    report flags [r] = {
      exitCode := if flags.contains .failOnMatch && !found.isEmpty then 1 else 0
      output := if flags.contains .json then jsonReport (found.map (Item.mk r.path))
        else plainReport (found.map (Item.mk r.path))
      errors := "", fault := none } := by
  have hitems : items? [r] = .ok (found.map (Item.mk r.path)) := by
    rw [items?, List.mapM_cons, h]
    simp [List.mapM_nil]
  have hfailures : failureReport [r] = "" := by
    have hsome : r.tree.isNone = false := by
      rw [Bool.eq_false_iff]
      exact fun hnone ↦ htree (Option.isNone_iff_eq_none.1 hnone)
    rw [failureReport, List.filter_cons, hsome]
    rfl
  rw [report, hitems, hfailures]
  simp

/-- A file that cannot be scanned is reported on with the reason. -/
theorem report_failure (w : Workspace) (flags : List Flag) (path words : String) :
    report flags [w.failure path words] = {
      exitCode := 0, output := if flags.contains .json then "[]\n" else ""
      errors := line (path ++ ": " ++ words), fault := none } := by
  have hitems : items? [w.failure path words] = .ok [] := rfl
  have hfailures : failureReport [w.failure path words] = line (path ++ ": " ++ words) := by
    show String.join [line (path ++ ": " ++ "; ".intercalate [words])] = _
    rw [String.intercalate_singleton]
    simp
  have hnothing : jsonReport [] = "[]\n" := by decide +kernel
  have hempty : plainReport [] = "" := by decide +kernel
  rw [report, hitems, hfailures]
  simp [hnothing, hempty]

/-- The lines about a finding as they are printed. -/
def Item.block (i : Item) : String := String.join (i.lines.map line)

/-- The plain report has one block for each finding. -/
theorem plainReport_eq (items : List Item) :
    plainReport items = String.join (items.map Item.block) := by
  rw [plainReport, List.map_flatMap]
  induction items with
  | nil => rfl
  | cons i items ih =>
    rw [List.flatMap_cons, List.map_cons, String.join_append, String.join_cons, ih]
    rfl

/-- A block begins with the text of the comment and ends with the path and the line, counted
from 1. -/
theorem Item.exists_block (i : Item) : ∃ scopes, i.block =
    line i.finding.content ++ scopes ++ line s!"{i.path}:{i.finding.line + 1}" ++ line "" := by
  have hlines : ∃ scopes : List String, i.lines =
      i.finding.content :: (scopes ++ [s!"{i.path}:{i.finding.line + 1}", ""]) :=
    ⟨_, rfl⟩
  obtain ⟨scopes, hlines⟩ := hlines
  refine ⟨String.join (scopes.map line), ?_⟩
  rw [block, hlines, List.map_cons, List.map_append, String.join_cons, String.join_append]
  simp only [List.map_cons, List.map_nil, String.join_cons, String.join_nil, String.append_empty,
    String.append_assoc]

/-- JSON is printed as it is. -/
theorem jsonReport_eq (items : List Item) :
    jsonReport items = (Json.arr (items.map Item.json)).pretty ++ "\n" :=
  line_eq (Json.isWritten_prettyAt 0 _).escape_not_mem

end Cli

/-! ### Both -/

/-- The workspace of the command line. -/
def workspaceOf (registry : Registry FrontEnd) (disk : Disk) (settings : Settings) (m : Markers) :
    Workspace where
  disk := disk
  scanner := ⟨registry, m.accepts⟩
  sizeLimit := settings.maxFileSize
  workers := settings.workerCount

theorem of?_eq_workspaceOf (hmarkers : settings.markers? = .ok m) :
    Workspace.of? disk registry settings none 0 = .ok (workspaceOf registry disk settings m) := by
  rw [Workspace.of?, hmarkers]
  rfl

/-- The answer to a request to scan. -/
def answerTo (registry : Registry FrontEnd) (settings : Settings) (body : String) :
    Except Markers.Fault Api.Outcome :=
  (Api.Service.mk registry settings).respond ⟨"POST", Api.Route.scan.path, body⟩

/-- What comes of the command to scan. -/
def commandFor (registry : Registry FrontEnd) (settings : Settings) (disk : Disk)
    (args : List String) : Cli.Outcome :=
  Cli.runWith registry disk (.ok settings) (Cli.scanName :: args)

/-- What both interfaces work with: a source is asked for under a path, and it is in the file at
this path. -/
structure Shared (disk : Disk) (source path body : String) : Prop where
  names : NamesSource path
  unmarked : source.toList.head? ≠ some Utf8.byteOrderMark
  file : disk.find? path = .ok (.file source.toUTF8)
  asks : Api.Asks body source path

namespace Shared

variable {r : FileReport} {fault : ScanFault} {words : String}

/-- The file is scanned as the text that is in it. -/
theorem scanContent_eq (h : Shared disk source path body) (w : Workspace) :
    w.scanContent (Workspace.reportedPath path (some path)) source.toUTF8 =
      w.scanner.scanSource (some source) path none none := by
  have hreported : Workspace.reportedPath path (some path) = path := ite_self path
  rw [Workspace.scanContent, hreported, Utf8.fileText_toUTF8 h.unmarked, Scanner.scanSource_digest]

/-- The command line scans the path that it is given. -/
theorem commandFor_eq (h : Shared disk source path body) (registry : Registry FrontEnd)
    (settings : Settings) :
    commandFor registry settings disk ["--json", path] =
        Cli.scanPaths registry disk settings [.json] [path] ∧
      commandFor registry settings disk [path] =
        Cli.scanPaths registry disk settings [] [path] := by
  rw [commandFor, commandFor, Cli.runWith_scan, Cli.runWith_scan]
  exact ⟨Cli.runScan_paths (Cli.separate?_json h.names.noFlag) rfl h.file,
    Cli.runScan_paths (Cli.separate?_path h.names.noFlag) rfl h.file⟩

/-- The command line reports on the scan of the file. -/
theorem commandFor_report (h : Shared disk source path body) (hmarkers : settings.markers? = .ok m)
    (hscan : (workspaceOf registry disk settings m).scanFile? path (some path) = .ok r) :
    commandFor registry settings disk ["--json", path] = Cli.report [.json] [r] ∧
      commandFor registry settings disk [path] = Cli.report [] [r] := by
  have hpaths : (workspaceOf registry disk settings m).scanPaths [path] = .ok [r] := by
    rw [Workspace.scanPaths_file h.names h.file, Workspace.scanFile, hscan]
  have hscanned : ∀ flags, Cli.scanPaths registry disk settings flags [path] =
      Cli.report flags [r] := by
    intro flags
    simp only [Cli.scanPaths, of?_eq_workspaceOf hmarkers, hpaths]
  rw [(h.commandFor_eq registry settings).1, (h.commandFor_eq registry settings).2]
  exact ⟨hscanned [.json], hscanned []⟩

/-- Both interfaces report what is found in the source. -/
theorem found (h : Shared disk source path body) (hmarkers : settings.markers? = .ok m)
    (hscan : (Scanner.mk registry m.accepts).scanSource (some source) path none none = .ok r) :
    ∃ found, answerTo registry settings body = .ok (.done (Api.Service.reportOf r found)) ∧
      commandFor registry settings disk ["--json", path] =
        ⟨0, (Json.arr (found.map fun d ↦ (Cli.Item.mk path d).json)).pretty ++ "\n", "", none⟩ ∧
      commandFor registry settings disk [path] =
        ⟨0, String.join (found.map fun d ↦ (Cli.Item.mk path d).block), "", none⟩ := by
  obtain ⟨hpath, -, htree, found, hfound⟩ := Scanner.exists_described? hscan
  have hread : disk.read? path = .ok source.toUTF8 := by rw [Disk.read?, h.file]
  have hfile : (workspaceOf registry disk settings m).scanFile? path (some path) = .ok r :=
    Workspace.scanFile?_scanned hread ((h.scanContent_eq _).trans hscan)
  obtain ⟨hjson, hplain⟩ := h.commandFor_report hmarkers hfile
  refine ⟨found, ?_, ?_, ?_⟩
  · rw [answerTo, Api.Service.respond_scan hmarkers h.names h.asks,
      Api.Service.scan_found h.names.ne_empty hscan hfound]
  · rw [hjson, Cli.report_described _ htree hfound, hpath]
    show Cli.Outcome.mk 0 (Cli.jsonReport _) "" none = _
    rw [Cli.jsonReport_eq, List.map_map]
    rfl
  · rw [hplain, Cli.report_described _ htree hfound, hpath]
    show Cli.Outcome.mk 0 (Cli.plainReport _) "" none = _
    rw [Cli.plainReport_eq, List.map_map, Function.comp_def]

/-- Both interfaces report why the source cannot be scanned. -/
theorem refused (h : Shared disk source path body) (hmarkers : settings.markers? = .ok m)
    (hscan : (Scanner.mk registry m.accepts).scanSource (some source) path none none =
      .error fault) (hwords : fault.message = some words) :
    answerTo registry settings body = .ok (.refused 400 words) ∧
      commandFor registry settings disk ["--json", path] =
        ⟨0, "[]\n", Cli.line (path ++ ": " ++ words), none⟩ ∧
      commandFor registry settings disk [path] =
        ⟨0, "", Cli.line (path ++ ": " ++ words), none⟩ := by
  have hread : disk.read? path = .ok source.toUTF8 := by rw [Disk.read?, h.file]
  have hreported : Workspace.reportedPath path (some path) = path := ite_self path
  have hfile : (workspaceOf registry disk settings m).scanFile? path (some path) =
      .ok ((workspaceOf registry disk settings m).failure path words) := by
    rw [Workspace.scanFile?_refused hread ((h.scanContent_eq _).trans hscan) hwords, hreported]
  obtain ⟨hjson, hplain⟩ := h.commandFor_report hmarkers hfile
  refine ⟨?_, ?_, ?_⟩
  · rw [answerTo, Api.Service.respond_scan hmarkers h.names h.asks,
      Api.Service.scan_refused h.names.ne_empty hscan hwords]
  · rw [hjson, Cli.report_failure]
    rfl
  · rw [hplain, Cli.report_failure]
    rfl

/-- Neither interface scans anything with markers that are not allowed. -/
theorem unset (h : Shared disk source path body) {fault : Markers.Fault}
    (hmarkers : settings.markers? = .error fault) :
    answerTo registry settings body = .error fault ∧
      commandFor registry settings disk ["--json", path] = .failed (.markers fault) ∧
      commandFor registry settings disk [path] = .failed (.markers fault) := by
  have hof : Workspace.of? disk registry settings none 0 = .error fault := by
    rw [Workspace.of?, hmarkers]
    rfl
  have hscanned : ∀ flags, Cli.scanPaths registry disk settings flags [path] =
      .failed (.markers fault) := by
    intro flags
    rw [Cli.scanPaths, hof]
  rw [(h.commandFor_eq registry settings).1, (h.commandFor_eq registry settings).2]
  refine ⟨?_, hscanned [.json], hscanned []⟩
  obtain ⟨members, hread, -⟩ := h.asks
  rw [answerTo, Api.Service.respond, Api.Route.at?_path]
  show (Api.Service.mk registry settings).answerScan body = _
  rw [Api.Service.answerScan, hread]
  show (settings.markers? >>= fun m ↦ _) = _
  rw [hmarkers]
  rfl

end Shared

/-- **The service and the command line give the same answer** for a source that is sent to the one
and stands in a file for the other. Either both report the same findings in the same order, and the
digest that is sent is that of the bytes of the file. Or both say why the source cannot be scanned,
and the command line prints the reason behind the path, without terminal escape sequences: exactly
if the path has no escape character. Or the settings have markers that are not allowed, and both end
with that fault. -/
theorem answers_agree (registry : Registry FrontEnd) (settings : Settings)
    (h : Shared disk source path body) :
    (∃ (found : List Described) (json : Json), answerTo registry settings body = .ok (.done json) ∧
      json.member? "comments" = some (.arr (found.map Api.Service.commentOf)) ∧
      json.member? "total_comments" = some (.nat found.length) ∧
      json.member? "content_hash" = some (.str (Sha256.hex source.toUTF8)) ∧
      commandFor registry settings disk ["--json", path] =
        ⟨0, (Json.arr (found.map fun d ↦ (Cli.Item.mk path d).json)).pretty ++ "\n", "", none⟩ ∧
      commandFor registry settings disk [path] =
        ⟨0, String.join (found.map fun d ↦ (Cli.Item.mk path d).block), "", none⟩ ∧
      ∀ d ∈ found, ∃ scopes, (Cli.Item.mk path d).block =
        Cli.line d.content ++ scopes ++ Cli.line s!"{path}:{d.line + 1}" ++ Cli.line "") ∨
    (∃ detail, answerTo registry settings body = .ok (.refused 400 detail) ∧
      commandFor registry settings disk ["--json", path] =
        ⟨0, "[]\n", Cli.line (path ++ ": " ++ detail), none⟩ ∧
      commandFor registry settings disk [path] =
        ⟨0, "", Cli.line (path ++ ": " ++ detail), none⟩ ∧
      ('\x1b' ∉ path.toList →
        Cli.line (path ++ ": " ++ detail) = path ++ ": " ++ detail ++ "\n")) ∨
    ∃ fault, settings.markers? = .error fault ∧ answerTo registry settings body = .error fault ∧
      commandFor registry settings disk ["--json", path] = .failed (.markers fault) ∧
      commandFor registry settings disk [path] = .failed (.markers fault) := by
  cases hmarkers : settings.markers? with
  | error fault => exact .inr (.inr ⟨fault, rfl, h.unset hmarkers⟩)
  | ok m =>
    cases hscan : (Scanner.mk registry m.accepts).scanSource (some source) path none none with
    | ok r =>
      obtain ⟨-, hhash, -⟩ := Scanner.exists_described? hscan
      obtain ⟨found, hanswer, hjson, hplain⟩ := h.found hmarkers hscan
      exact .inl ⟨found, _, hanswer, rfl, rfl, congrArg (some ∘ Json.str) hhash, hjson, hplain,
        fun d _ ↦ Cli.Item.exists_block ⟨path, d⟩⟩
    | error fault =>
      obtain ⟨words, hwords⟩ := Scanner.exists_words hscan
      obtain ⟨hanswer, hjson, hplain⟩ := h.refused hmarkers hscan hwords
      refine .inr (.inl ⟨words, hanswer, hjson, hplain, fun hescape ↦ Cli.line_eq ?_⟩)
      have hcolon : '\x1b' ∉ ": ".toList := by decide
      rw [String.toList_append, String.toList_append, List.mem_append, List.mem_append, not_or,
        not_or]
      exact ⟨⟨hescape, hcolon⟩, Scanner.escape_not_mem_words hescape hscan hwords⟩

end

/-! ### Two files -/

/-- A body that asks for the scan of a source under a path. -/
def bodyFor (source path : String) : String :=
  (Json.obj (Json.ofTexts [("source_code", source), ("file_path", path)])).compact

theorem asks_bodyFor (source path : String) : Api.Asks (bodyFor source path) source path := by
  have hread := Json.read?_compact_texts [("source_code", source), ("file_path", path)]
  have hbody : Api.bodyText (bodyFor source path) = (bodyFor source path).toList := by
    obtain ⟨rest, hrest⟩ : ∃ rest, (bodyFor source path).toList = '\x7b' :: rest := by
      rw [bodyFor, Json.compact, String.toList_append, String.toList_append, List.append_assoc]
      exact ⟨_, rfl⟩
    rw [Api.bodyText, hrest]
    exact if_neg (by decide)
  exact ⟨_, hbody ▸ hread, rfl, rfl, .inl rfl⟩

/-- The small file is sent and stands in a workspace. -/
theorem shared_sample : Shared Workspace.sample.disk Concrete.sampleText "a.cs"
    (bodyFor Concrete.sampleText "a.cs") where
  names := ⟨by decide, by decide, by decide, by decide, by decide, by decide⟩
  unmarked := by decide
  file := Disk.IsPlain.find?_eq (by decide : Disk.IsPlain "a.cs") rfl (by simp)
  asks := asks_bodyFor _ _

/-- The service has findings for the small file if and only if the command line does not say that it
cannot be scanned. -/
theorem answers_agree_sample : Shared Workspace.sample.disk Concrete.sampleText "a.cs"
    (bodyFor Concrete.sampleText "a.cs") ∧
    ((∃ json, answerTo Workspace.sample.scanner.registry .standard
        (bodyFor Concrete.sampleText "a.cs") = .ok (.done json)) ↔
      (commandFor Workspace.sample.scanner.registry .standard Workspace.sample.disk
        ["--json", "a.cs"]).errors = "") := by
  refine ⟨shared_sample, ?_⟩
  rcases answers_agree Workspace.sample.scanner.registry .standard shared_sample with
    ⟨found, json, hanswer, -, -, -, hcommand, -⟩ | ⟨detail, hanswer, hcommand, -⟩ |
    ⟨fault, hfault, -⟩
  · rw [hcommand]
    exact iff_of_true ⟨json, hanswer⟩ rfl
  · rw [hanswer, hcommand]
    refine iff_of_false (by simp) fun hline ↦ ?_
    have hfeed : '\n' ∈ (Cli.line ("a.cs" ++ ": " ++ detail)).toList := by simp [Cli.line]
    rw [show Cli.line ("a.cs" ++ ": " ++ detail) = "" from hline] at hfeed
    exact absurd hfeed (by decide)
  · cases hfault

/-- The path of a text in no known language, with a sequence that sets the colour of a terminal. -/
def colouredPath : String := "x\x1b[0m.txt"

/-- A disk with that text. -/
def colouredDisk : Disk := ⟨[(colouredPath, .file "a".toUTF8)], []⟩

/-- **The command line takes terminal sequences out of the reason**, and so does not print what the
service sends. -/
theorem answers_agree_stripped :
    Shared colouredDisk "a" colouredPath (bodyFor "a" colouredPath) ∧
      answerTo Workspace.sample.scanner.registry .standard (bodyFor "a" colouredPath) =
        .ok (.refused 400 "Unsupported file type: x\x1b[0m.txt") ∧
      commandFor Workspace.sample.scanner.registry .standard colouredDisk
        ["--json", colouredPath] = ⟨0, "[]\n", "x.txt: Unsupported file type: x.txt\n", none⟩ ∧
      "x.txt: Unsupported file type: x.txt\n" ≠
        colouredPath ++ ": " ++ "Unsupported file type: x\x1b[0m.txt" ++ "\n" := by
  have hshared : Shared colouredDisk "a" colouredPath (bodyFor "a" colouredPath) :=
    { names := ⟨by decide, by decide, by decide, by decide, by decide, by decide⟩
      unmarked := by decide
      file := Disk.IsPlain.find?_eq (by decide : Disk.IsPlain colouredPath) rfl (by simp)
      asks := asks_bodyFor _ _ }
  have hmarkers : Settings.standard.markers? = .ok .standard := rfl
  have hscan : (Scanner.mk Workspace.sample.scanner.registry Markers.standard.accepts).scanSource
      (some "a") colouredPath none none = .error (.unsupportedFile colouredPath) :=
    Scanner.scanSource_unsupported (by decide)
  obtain ⟨hanswer, hcommand, -⟩ := hshared.refused hmarkers hscan rfl
  have hline : Cli.line (colouredPath ++ ": " ++ ("Unsupported file type: " ++ colouredPath)) =
      "x.txt: Unsupported file type: x.txt\n" := by decide +kernel
  exact ⟨hshared, hanswer, hline ▸ hcommand, by decide +kernel⟩

end CommentScope
