import CommentScope.Proofs.DiscoveredFiles
import CommentScope.Proofs.Extensions
import CommentScope.Proofs.ReadingErrors
import CommentScope.Proofs.SharedSources

/-!
# What is selected can be scanned

Directories, projects and solutions are searched for sources by the names of files, and each source is
scanned in the language of the path that it is reported under. The two agree
(`Workspace.selected_supported`): a file that was selected is never refused for its type.

That the path of a source ends in the name of the source needs an argument: it is the way from a
directory, and the way to what that directory is in has no names. But a file is not what a directory is
in.
-/

namespace CommentScope

open Outcome

/-! ### Languages of names -/

namespace Registry

variable {φ : Type} {frontEnd : Language → φ} {path name : String} {l : Language}

/-- The path of a C# source is one of C#. -/
theorem languageFor?_of_isSourceName (hend : name.toList <:+ path.toList)
    (h : Project.isSourceName name = true) :
    (ofAll frontEnd).languageFor? path = some .csharp := by
  rw [languageFor?, extensionOf_of_isSourceName hend h]
  rfl

/-- A path that ends in a name with a known suffix is of the language of this suffix. -/
theorem exists_languageFor? (hend : name.toList <:+ path.toList)
    (h : Discovery.isKnown (ofAll frontEnd) name = true) :
    ∃ l, (ofAll frontEnd).extensions.lookup (Text.lower (Path.suffixOf name)) = some l ∧
      (ofAll frontEnd).languageFor? path = some l := by
  have hknown := Discovery.isKnown_iff.1 h
  have hextensions : (ofAll frontEnd).knownExtensions = [".cs", ".java", ".py"] := rfl
  rw [hextensions] at hknown
  have hall : ∀ e ∈ [".cs", ".java", ".py"], e.toList.all (· ∉ ['/', '\\']) = true ∧
      ∃ l, (ofAll frontEnd).extensions.lookup e = some l := by
    simp only [List.forall_mem_cons]
    exact ⟨⟨by decide, _, rfl⟩, ⟨by decide, _, rfl⟩, ⟨by decide, _, rfl⟩,
      List.forall_mem_nil _⟩
  obtain ⟨hslash, l, hl⟩ := hall _ hknown
  have hne : Path.suffixOf name ≠ "" := by
    intro hnone
    rw [hnone] at hknown
    exact absurd hknown (by decide)
  refine ⟨l, hl, ?_⟩
  have hplain : ∀ c ∈ (Text.lower (Path.suffixOf name)).toList, c ∉ ['/', '\\'] :=
    fun c hc ↦ of_decide_eq_true (List.all_eq_true.1 hslash c hc)
  rw [languageFor?, extensionOf_eq_lower_suffixOf hend hne hplain, hl]

/-- Each language has its front end. -/
theorem frontEndFor?_ofAll (h : (ofAll frontEnd).languageFor? path = some l) :
    (ofAll frontEnd).frontEndFor? path = some (frontEnd l) := by
  rw [frontEndFor?, h]
  exact frontEnd?_ofAll frontEnd l

/-- No language is that of no path. -/
theorem languageFor?_empty : (ofAll frontEnd).languageFor? "" = none := rfl

end Registry

/-! ### Paths of sources -/

namespace Location

variable {base l : Location}

/-- The way to what is not around a location ends with names. -/
theorem exists_wayTo (h : ¬ l <+: base) :
    ∃ up down, wayTo base l = up ++ down ∧ down ≠ [] ∧ down <:+ l := by
  induction base generalizing l with
  | nil =>
    cases l with
    | nil => exact absurd List.nil_prefix h
    | cons b l => exact ⟨[], b :: l, rfl, List.cons_ne_nil b l, List.suffix_rfl⟩
  | cons a base ih =>
    cases l with
    | nil => exact absurd List.nil_prefix h
    | cons b l =>
      rw [wayTo]
      split
      · rename_i heq
        obtain ⟨up, down, hway, hne, hend⟩ := ih fun hrest ↦
          h (List.cons_prefix_cons.2 ⟨heq.symm, hrest⟩)
        exact ⟨up, down, hway, hne, hend.trans (List.suffix_cons b l)⟩
      · exact ⟨_, b :: l, rfl, List.cons_ne_nil b l, List.suffix_rfl⟩

/-- **The way to a file ends in the name of the file.** -/
theorem name_suffix_wayText (h : ¬ l <+: base) :
    (l.getLastD "").toList <:+ (wayText base l).toList := by
  obtain ⟨up, down, hway, hne, front, rfl⟩ := exists_wayTo h
  obtain ⟨down, name, rfl⟩ := (List.eq_nil_or_concat down).resolve_left hne
  have hname : wayTo base (front ++ down.concat name) = (up ++ down) ++ [name] := by
    rw [hway, List.concat_eq_append, List.append_assoc]
  have hempty : ((up ++ down) ++ [name]).isEmpty = false := by simp
  rw [wayText, hname, List.concat_eq_append, ← List.append_assoc, List.getLastD_concat]
  show _ <:+ (if ((up ++ down) ++ [name]).isEmpty then "." else _).toList
  rw [hempty, if_neg Bool.false_ne_true, Path.toList_intercalate_slash, List.map_append,
    List.map_singleton]
  exact Text.suffix_joinWith_concat _ _

end Location

/-! ### Refused files -/

/-- How a report begins to say that the type of a file is not supported. -/
def refusal : String := "Unsupported file type: "

/-- Whether a report says that the type of its file is not supported. -/
def FileReport.IsRefused (r : FileReport) : Prop := ∃ e ∈ r.errors, refusal.toList <+: e.toList

theorem not_refusal_of_head? {e : String} {c : Char} (h : e.toList.head? = some c) (hc : c ≠ 'U') :
    ¬ refusal.toList <+: e.toList := by
  rintro ⟨more, hmore⟩
  rw [← hmore] at h
  exact hc (Option.some.inj h).symm

/-- What could not be read is no matter of the type of a file. -/
theorem Tree.not_refusal_of_mem_readingErrors {t : Tree} {e : String} (h : e ∈ t.readingErrors) :
    ¬ refusal.toList <+: e.toList := by
  rw [readingErrors] at h
  split at h
  · cases h
  · cases List.mem_singleton.1 h
    refine not_refusal_of_head? (c := 's') ?_ (by decide)
    rw [String.toList_append, String.toList_append]
    rfl

namespace Scanner

variable {s : Scanner} {path : String} {language : Option Language} {l : Language}
  {frontEnd : FrontEnd}

/-- A text in a known language has a report on what could be read of it, or is at fault for a span. -/
theorem scanSource_known (source : String) (hash : Option String)
    (hlanguage : (language <|> s.registry.languageFor? path) = some l)
    (hfrontEnd : s.registry.frontEnd? l = some frontEnd) :
    (∃ (report : FileReport) (t : Tree), s.scanSource (some source) path language hash = .ok report ∧
      report.errors = t.readingErrors) ∨
    ∃ f, s.scanSource (some source) path language hash = .error (.unreadable (.span f)) := by
  cases ht : frontEnd.grammar.tree? source.toUTF8 (frontEnd.parse source) with
  | ok t =>
    obtain ⟨report, hreport, herrors⟩ := exists_report hlanguage hfrontEnd ht
    exact .inl ⟨report, t, hreport, herrors⟩
  | error fault =>
    obtain ⟨f, rfl⟩ := Grammar.exists_span_fault ht
    have hl : s.languageOf path language = .ok l := by rw [languageOf, hlanguage]
    have hf : s.frontEndOf l = .ok frontEnd := by rw [frontEndOf, hfrontEnd]
    refine .inr ⟨f, bind_eq_error_iff.2 (.inr ⟨l, hl, bind_eq_error_iff.2 (.inr ⟨frontEnd, hf,
      bind_eq_error_iff.2 (.inl ?_)⟩)⟩)⟩
    rw [FrontEnd.tree?, ht]
    rfl

end Scanner

namespace Workspace

variable {w : Workspace} {path : String} {relative : Option String} {content : ByteArray}
  {l : Language} {frontEnd : FrontEnd}

/-- **A file that can be read is refused if its path is of no language**, and only then, provided that
each language has a front end. -/
theorem isRefused_scanFile_iff (hread : w.disk.read? path = .ok content)
    (hfrontEnds : ∀ l, ∃ frontEnd, w.scanner.registry.frontEnd? l = some frontEnd) :
    (w.scanFile path relative).IsRefused ↔
      w.scanner.registry.languageFor? (reportedPath path relative) = none := by
  have hreport := w.scanFile?_eq_ok path relative
  generalize w.scanFile path relative = r at hreport
  cases hl : w.scanner.registry.languageFor? (reportedPath path relative) with
  | none =>
    rw [scanFile?_refused hread (Scanner.scanSource_unsupported hl) rfl] at hreport
    cases hreport
    refine iff_of_true ⟨_, List.mem_singleton_self _, ?_⟩ rfl
    rw [String.toList_append]
    exact List.prefix_append _ _
  | some l =>
    obtain ⟨frontEnd, hfrontEnd⟩ := hfrontEnds l
    have hlanguage : (none <|> w.scanner.registry.languageFor? (reportedPath path relative)) =
        some l := hl
    refine iff_of_false ?_ (Option.some_ne_none l)
    rintro ⟨e, he, hrefusal⟩
    rcases Scanner.scanSource_known (Utf8.fileText content) (some (Sha256.hex content)) hlanguage
      hfrontEnd with ⟨report, t, hok, herrors⟩ | ⟨f, hf⟩
    · rw [scanFile?_scanned hread hok] at hreport
      cases hreport
      rw [herrors] at he
      exact Tree.not_refusal_of_mem_readingErrors he hrefusal
    · rw [scanFile?_refused hread hf rfl] at hreport
      cases hreport
      cases List.mem_singleton.1 he
      revert hrefusal
      cases f <;> decide

/-! ### What is scanned -/

/-- Whether there is a file at a location. -/
def IsFile (w : Workspace) (l : Location) : Prop :=
  ∃ content, w.disk.find? l.text = .ok (.file content)

/-- Reports are those of the files, one by one. -/
theorem eq_map_of_scanFiles {files : List SourceFile} {reports : List FileReport}
    (h : w.scanFiles files = .ok reports) : reports = files.map w.scanFound := by
  rw [scanFiles] at h
  split at h
  · rename_i hempty
    cases h
    rw [List.isEmpty_iff.1 hempty]
    rfl
  · split at h
    · cases h
    · cases h
      rfl

/-- The sources of projects are those of each of them. -/
theorem exists_of_mem_sourcesOfAll {projects sources : List Location} {l : Location}
    (h : w.sourcesOfAll projects = .ok sources) (hl : l ∈ sources) :
    ∃ project ls, Project.sources? w.disk project = .ok ls ∧ l ∈ ls := by
  induction projects generalizing sources with
  | nil =>
    cases h
    cases hl
  | cons p projects ih =>
    rw [sourcesOfAll_cons] at h
    split at h
    · rename_i ls hls
      obtain ⟨more, hmore, h⟩ := bind_eq_ok_iff.1 h
      cases h
      rcases List.mem_append.1 hl with hl | hl
      · exact ⟨_, ls, hls, hl⟩
      · exact ih hmore hl
    · split at h
      · exact ih h hl
      · cases h

/-- The sources of a project have the names of sources. -/
theorem isSourceName_of_mem (hsound : w.disk.root.Sound) {project : String} {sources : List Location}
    {l : Location} (h : Project.sources? w.disk project = .ok sources) (hl : l ∈ sources) :
    Project.isSourceName (l.getLastD "") = true := by
  obtain ⟨_, _, _, _, _, _, hselects⟩ := (Project.sources?_eq_ok_iff hsound).1 h
  exact ((hselects.mem_iff l).1 hl).2.2

/-- Whether reports are those on locations, under their paths from a base, and none refuses a file. -/
def Supports (w : Workspace) (base : Location) : List Location → List FileReport → Prop :=
  List.Forall₂ fun l r ↦ w.scanFile? l.text (some (Location.wayText base l)) = .ok r ∧
    (w.IsFile l → ¬ r.IsRefused)

section

variable {parse : Language → String → Concrete} {base : Location}

/-- A file that is scanned under a path of some language is not refused. -/
theorem not_isRefused (hregistry : w.scanner.registry = .ofAll (FrontEnd.ofLanguage parse))
    (hread : w.disk.read? path = .ok content) {reported : String} {l : Language}
    (hl : w.scanner.registry.languageFor? reported = some l) :
    ¬ (w.scanFile path (some reported)).IsRefused := by
  have hpath : reportedPath path (some reported) = reported := by
    refine if_neg fun hempty ↦ ?_
    rw [String.isEmpty_iff.1 hempty, hregistry, Registry.languageFor?_empty] at hl
    cases hl
  have hfrontEnds : ∀ l, ∃ frontEnd, w.scanner.registry.frontEnd? l = some frontEnd := by
    intro l
    rw [hregistry]
    exact ⟨_, Registry.frontEnd?_ofAll _ l⟩
  rw [isRefused_scanFile_iff hread hfrontEnds, hpath, hl]
  exact Option.some_ne_none l

/-- A file that is found below a directory has a path of the language of its suffix. -/
theorem exists_language_found (hregistry : w.scanner.registry = .ofAll (FrontEnd.ofLanguage parse))
    {files : List SourceFile} (h : Discovery.run w.scanner.registry w.sizeLimit w.disk path = .ok files)
    {f : SourceFile} (hf : f ∈ files) : w.IsFile f.location ∧ ∃ l,
      w.scanner.registry.extensions.lookup
        (Text.lower (Path.suffixOf (f.location.getLastD ""))) = some l ∧
      w.scanner.registry.languageFor? f.relative = some l := by
  obtain ⟨root, es, -, -, rfl⟩ := Discovery.run_eq_ok_iff.1 h
  obtain ⟨way, -, hway⟩ := List.mem_filterMap.1 (List.mem_mergeSort.1 hf)
  obtain ⟨content, hfound, hknown, -, rfl⟩ := Discovery.fileAt?_eq_some_iff.1 hway
  refine ⟨⟨content, hfound⟩, ?_⟩
  rw [hregistry] at hknown ⊢
  rcases List.eq_nil_or_concat way with rfl | ⟨front, name, rfl⟩
  · obtain ⟨l, -, hl⟩ := Registry.exists_languageFor? (List.suffix_refl "".toList) hknown
    cases hl
  · rw [List.concat_eq_append] at hknown ⊢
    rw [List.getLastD_concat] at hknown
    show ∃ l, (Registry.ofAll _).extensions.lookup (Text.lower (Path.suffixOf
      ((root ++ (front ++ [name])).getLastD ""))) = some l ∧ _
    rw [← List.append_assoc, List.getLastD_concat]
    refine Registry.exists_languageFor? ?_ hknown
    rw [Path.toList_intercalate_slash, List.map_append, List.map_singleton]
    exact Text.suffix_joinWith_concat _ _

/-- A file among the sources of a project has a path of C#, from the directory of any file. -/
theorem languageFor?_source (hsound : w.disk.root.Sound)
    (hregistry : w.scanner.registry = .ofAll (FrontEnd.ofLanguage parse))
    (hread : w.disk.read? (Path.ofText path).text = .ok content) (hbase : w.baseOf path = .ok base)
    {project : String} {sources : List Location}
    (hsources : Project.sources? w.disk project = .ok sources) {l : Location} (hl : l ∈ sources)
    (hfile : w.IsFile l) :
    w.scanner.registry.languageFor? (Location.wayText base l) = some .csharp := by
  obtain ⟨base', entries, hbase', hdir⟩ := exists_baseOf hsound hread
  cases hbase.symm.trans hbase'
  obtain ⟨content, hfile⟩ := hfile
  rw [hregistry]
  exact Registry.languageFor?_of_isSourceName
    (Location.name_suffix_wayText (Disk.not_prefix_of_file hsound hdir hfile))
    (isSourceName_of_mem hsound hsources hl)

/-- Sources of projects are reported on under their paths from a directory, and those that are files
are not refused. -/
theorem supports_scanned (hsound : w.disk.root.Sound)
    (hregistry : w.scanner.registry = .ofAll (FrontEnd.ofLanguage parse))
    (hread : w.disk.read? (Path.ofText path).text = .ok content) (hbase : w.baseOf path = .ok base)
    {sources : List Location} {reports : List FileReport}
    (hreports : w.scanFiles (sources.map (w.sourceFile base)) = .ok reports)
    (hsources : ∀ l ∈ sources, ∃ project ls, Project.sources? w.disk project = .ok ls ∧ l ∈ ls) :
    w.Supports base sources reports := by
  rw [eq_map_of_scanFiles hreports, List.map_map, Supports, List.forall₂_map_right_iff,
    List.forall₂_same]
  intro l hl
  refine ⟨w.scanFile?_eq_ok l.text (some (Location.wayText base l)), fun hfile ↦ ?_⟩
  obtain ⟨project, ls, hls, hl⟩ := hsources l hl
  obtain ⟨content, hfind⟩ := id hfile
  exact not_isRefused hregistry (Disk.read?_eq_ok_iff.2 hfind)
    (languageFor?_source hsound hregistry hread hbase hls hl hfile)

/-- **No file that is selected is refused for its type.** Let the languages be those that come with
the library, each with its extensions and a parser. A file that is found below a directory has a
relative path of some language, that of its suffix, and a front end for this language. A file among
the sources of a project has a path of C#, as it is written from the directory of the project or of a
solution. So no report of a scan of a directory says that the type of its file is not supported; and of
a scan of a project or a solution, whose reports are on the sources of projects, no report on a file
does. -/
theorem selected_supported (hsound : w.disk.root.Sound)
    (hregistry : w.scanner.registry = .ofAll (FrontEnd.ofLanguage parse)) :
    (∀ path files, Discovery.run w.scanner.registry w.sizeLimit w.disk path = .ok files →
      ∀ f ∈ files, ∃ l, w.scanner.registry.extensions.lookup
          (Text.lower (Path.suffixOf (f.location.getLastD ""))) = some l ∧
        w.scanner.registry.languageFor? f.relative = some l ∧
        w.scanner.registry.frontEndFor? f.relative = some (FrontEnd.ofLanguage parse l)) ∧
    (∀ path content base project sources, w.disk.read? (Path.ofText path).text = .ok content →
      w.baseOf path = .ok base → Project.sources? w.disk project = .ok sources →
      ∀ l ∈ sources, w.IsFile l →
        w.scanner.registry.languageFor? (Location.wayText base l) = some .csharp ∧
        w.scanner.registry.frontEndFor? (Location.wayText base l) =
          some (FrontEnd.ofLanguage parse .csharp)) ∧
    (∀ path reports, w.scanDirectory path = .ok reports → ∀ r ∈ reports, ¬ r.IsRefused) ∧
    (∀ path reports, w.scanProject path = .ok reports → ∃ base sources, w.baseOf path = .ok base ∧
      Project.sources? w.disk path = .ok sources ∧ w.Supports base sources reports) ∧
    ∀ path reports, w.scanSolution path = .ok reports → ∃ base projects sources,
      w.baseOf path = .ok base ∧ Solution.projects? w.disk path = .ok projects ∧
      w.sourcesOfAll projects = .ok sources ∧ w.Supports base (Project.distinct sources) reports := by
  refine ⟨fun path files hfiles f hf ↦ ?_, ?_, fun path reports hreports r hr ↦ ?_,
    fun path reports hreports ↦ ?_, fun path reports hreports ↦ ?_⟩
  · obtain ⟨-, l, hsuffix, hl⟩ := exists_language_found hregistry hfiles hf
    refine ⟨l, hsuffix, hl, ?_⟩
    rw [hregistry] at hl ⊢
    exact Registry.frontEndFor?_ofAll hl
  · intro path content base project sources hread hbase hsources l hl hfile
    have hlanguage := languageFor?_source hsound hregistry hread hbase hsources hl hfile
    refine ⟨hlanguage, ?_⟩
    rw [hregistry] at hlanguage ⊢
    exact Registry.frontEndFor?_ofAll hlanguage
  · obtain ⟨files, hfiles, hreports⟩ := bind_eq_ok_iff.1 hreports
    rw [eq_map_of_scanFiles hreports] at hr
    obtain ⟨f, hf, rfl⟩ := List.mem_map.1 hr
    obtain ⟨⟨content, hfind⟩, l, -, hl⟩ := exists_language_found hregistry hfiles hf
    exact not_isRefused hregistry (Disk.read?_eq_ok_iff.2 hfind) hl
  · obtain ⟨base, hbase, hreports⟩ := bind_eq_ok_iff.1 hreports
    obtain ⟨sources, hsources, hreports⟩ := bind_eq_ok_iff.1 hreports
    obtain ⟨document, hdocument, -⟩ := bind_eq_ok_iff.1 hsources
    obtain ⟨content, hread, -⟩ := bind_eq_ok_iff.1 hdocument
    exact ⟨base, sources, hbase, hsources, supports_scanned hsound hregistry
      (mapError_eq_ok_iff.1 hread) hbase hreports fun l hl ↦ ⟨path, sources, hsources, hl⟩⟩
  · obtain ⟨base, hbase, hreports⟩ := bind_eq_ok_iff.1 hreports
    obtain ⟨projects, hprojects, hreports⟩ := bind_eq_ok_iff.1 hreports
    obtain ⟨sources, hsources, hreports⟩ := bind_eq_ok_iff.1 hreports
    obtain ⟨content, hread, -⟩ := bind_eq_ok_iff.1 hprojects
    exact ⟨base, projects, sources, hbase, hprojects, hsources, supports_scanned hsound hregistry
      (mapError_eq_ok_iff.1 hread) hbase hreports fun l hl ↦
        exists_of_mem_sourcesOfAll hsources (Project.mem_distinct.1 hl)⟩

end

/-! ### A name with a backslash -/

/-- A workspace with one source, whose name has a backslash and capitals in it. -/
def odd : Workspace where
  disk := ⟨[("a\\.b.CS", .file Concrete.sampleText.toUTF8)], []⟩
  scanner := ⟨.ofAll (FrontEnd.ofLanguage Concrete.sampleParse), Markers.standard.accepts⟩
  sizeLimit := 1000000
  workers := 1

theorem sound_odd : odd.disk.root.Sound :=
  .intro (by decide) (by decide) (by simp [odd])

/-- The source is found below the root. -/
theorem run_odd : Discovery.run odd.scanner.registry odd.sizeLimit odd.disk "/" =
    .ok [⟨"a\\.b.CS", ["a\\.b.CS"], Concrete.sampleText.toUTF8.size⟩] := by
  have hpath : Path.ofText "/" = ⟨"/", []⟩ := by decide +kernel
  have hroot : odd.disk.resolve? (.ofText "/") = .ok [] := by
    rw [hpath, Disk.resolve?_root]
  have hdir : odd.disk.entries? (Location.text []) = some odd.disk.root := Disk.entries?_root odd.disk
  have hbelow : odd.disk.filesBelow Discovery.enters ⟨"/", []⟩ = [["a\\.b.CS"]] := by
    rw [Disk.filesBelow, Disk.entries?_root, Option.getD_some]
    simp [odd, Disk.waysBelow, Disk.waysOfEntry, Disk.waysOf]
  have hfile : Discovery.fileAt? odd.scanner.registry odd.sizeLimit odd.disk [] ["a\\.b.CS"] =
      some ⟨"a\\.b.CS", ["a\\.b.CS"], Concrete.sampleText.toUTF8.size⟩ :=
    Discovery.fileAt?_eq_some_iff.2 ⟨Concrete.sampleText.toUTF8,
      Disk.find?_location sound_odd rfl (fun _ h ↦ by cases h) (by decide), by decide +kernel,
      by decide +kernel, by decide +kernel⟩
  refine Discovery.run_eq_ok_iff.2 ⟨[], odd.disk.root, hroot, hdir, ?_⟩
  rw [Discovery.files, hbelow, List.filterMap_cons_some hfile, List.filterMap_nil,
    List.mergeSort_singleton]

/-- Neither the source with the backslash in its name nor those of a project are refused. -/
theorem selected_supported_odd :
    (∃ r, odd.scanDirectory "/" = .ok [r] ∧ ¬ r.IsRefused) ∧
    ∃ a b, shared.scanProject "/p.csproj" = .ok [a, b] ∧ ¬ a.IsRefused ∧ ¬ b.IsRefused := by
  constructor
  · obtain ⟨-, -, hdirectory, -⟩ := selected_supported sound_odd rfl
    have hscan : odd.scanDirectory "/" = .ok (List.map odd.scanFound _) :=
      bind_eq_ok_iff.2 ⟨_, run_odd, scanFiles_eq_map odd _ (by decide)⟩
    exact ⟨_, hscan, hdirectory "/" _ hscan _ (List.mem_singleton_self _)⟩
  · obtain ⟨-, -, -, hproject, -⟩ := selected_supported sound_shared rfl
    have hfile {name : String} (hplain : Disk.IsPlain name) {content : ByteArray}
        (hlookup : shared.disk.root.lookup name = some (.file content)) : shared.IsFile [name] :=
      ⟨content, hplain.find?_location hlookup nofun⟩
    have htext : Location.text ["p.csproj"] = "/p.csproj" ∧
        (Path.ofText "/p.csproj").text = "/p.csproj" := by
      decide +kernel
    obtain ⟨content, hfind⟩ := hfile (by decide : Disk.IsPlain "p.csproj") rfl
    rw [htext.1, ← htext.2, ← Disk.read?_eq_ok_iff] at hfind
    obtain ⟨base, -, hbase, -⟩ := exists_baseOf sound_shared hfind
    have hsources := sources?_shared (by decide : "p.csproj" ∈ _)
    rw [htext.1] at hsources
    have hscan : shared.scanProject "/p.csproj" =
        .ok (List.map shared.scanFound (List.map (shared.sourceFile base) _)) :=
      bind_eq_ok_iff.2 ⟨base, hbase, bind_eq_ok_iff.2 ⟨_, hsources,
        scanFiles_eq_map shared _ (by decide)⟩⟩
    obtain ⟨_, sources, -, hsources', hreports⟩ := hproject _ _ hscan
    cases hsources.symm.trans hsources'
    cases hreports with
    | cons ha hrest =>
      cases hrest with
      | cons hb _ =>
        exact ⟨_, _, hscan, ha.2 (hfile (by decide) rfl), hb.2 (hfile (by decide) rfl)⟩

end Workspace

end CommentScope
