import CommentScope.Proofs.CompiledFiles
import CommentScope.Proofs.Reports
import CommentScope.Proofs.Utf8
import CommentScope.Proofs.WrittenSolutions
import CommentScope.Workspace

/-!
# Projects that are left out

A project of a solution whose sources cannot be told is left out if its fault is skippable, and then
the solution is scanned as if it did not name the project. Not all faults of projects are skippable,
though: an encoding that no codec has a name for, links that lead back to themselves and a pattern
that begins at the root keep the whole solution from being scanned (`Workspace.scanSolution_skips`).

A solution is known by the directory that it lies in and by its entries (`Workspace.IsSolution`), so
that two solutions next to each other can be compared that differ by one entry.
-/

namespace CommentScope

open Outcome

namespace Project

variable {d : Disk} {path : String} {directory : Path} {fault : SourceFault}

theorem fault_of_resolve? {p : Path} (h : resolve? d p = .error fault) :
    ∃ l, fault = .loop l := by
  obtain ⟨l, -, rfl⟩ := mapError_eq_error_iff.1 h
  exact ⟨l, rfl⟩

/-- Whether a fault is one of specifications: of a pattern, of a path that a pattern comes to, or of
links that lead back to themselves. -/
def IsOfItems (fault : SourceFault) : Prop :=
  (∃ f, fault = .pattern f) ∨ (∃ f, fault = .disk f) ∨ ∃ l, fault = .loop l

theorem fault_of_expand? {specification : String}
    (h : expand? d directory specification = .error fault) : IsOfItems fault := by
  rcases bind_eq_error_iff.1 h with h | ⟨_, -, h⟩
  · obtain ⟨part, -, h⟩ := exists_eq_error_of_mapM h
    rw [expandPart?] at h
    split at h
    · rcases bind_eq_error_iff.1 h with h | ⟨pattern, -, h⟩
      · obtain ⟨f, -, rfl⟩ := mapError_eq_error_iff.1 h
        exact .inl ⟨f, rfl⟩
      · rcases bind_eq_error_iff.1 h with h | ⟨_, -, h⟩
        · obtain ⟨found, -, h⟩ := exists_eq_error_of_mapM h
          rcases bind_eq_error_iff.1 h with h | ⟨p, -, h⟩
          · obtain ⟨f, -, rfl⟩ := mapError_eq_error_iff.1 h
            exact .inr (.inl ⟨f, rfl⟩)
          · exact .inr (.inr (fault_of_resolve? h))
        · cases h
    · rcases bind_eq_error_iff.1 h with h | ⟨_, -, h⟩
      · exact .inr (.inr (fault_of_resolve? h))
      · cases h
  · cases h

theorem fault_of_specified? {e : Xml.Element} {name : String}
    (h : specified? d directory e name = .error fault) : IsOfItems fault := by
  rw [specified?] at h
  split at h
  · exact fault_of_expand? h
  · cases h

theorem fault_of_items? {e : Xml.Element} (h : items? d directory e = .error fault) :
    IsOfItems fault := by
  rw [items?] at h
  split at h
  · rcases bind_eq_error_iff.1 h with h | ⟨_, -, h⟩
    · exact fault_of_specified? h
    · rcases bind_eq_error_iff.1 h with h | ⟨_, -, h⟩
      · exact fault_of_specified? h
      · cases h
  · cases h

theorem fault_of_standardItems? (h : standardItems? d directory = .error fault) :
    ∃ l, fault = .loop l := by
  obtain ⟨way, -, h⟩ := exists_eq_error_of_mapM h
  exact fault_of_resolve? h

theorem fault_of_sourcesOf? {document : Xml.Document}
    (h : sourcesOf? d directory document = .error fault) : IsOfItems fault := by
  rcases bind_eq_error_iff.1 h with h | ⟨items, -, h⟩
  · obtain ⟨e, -, h⟩ := exists_eq_error_of_mapM h
    exact fault_of_items? h
  · rcases bind_eq_error_iff.1 h with h | ⟨named, -, h⟩
    · obtain ⟨l, -, h⟩ := exists_eq_error_of_mapM h
      exact .inr (.inr (fault_of_resolve? h))
    · split at h
      · rcases bind_eq_error_iff.1 h with h | ⟨standard, -, h⟩
        · exact .inr (.inr (fault_of_standardItems? h))
        · cases h
      · cases h

theorem fault_of_document? (h : document? d path = .error fault) :
    (∃ f, fault = .disk f) ∨ fault = .malformedProject path ∨
      (∃ name, fault = .unknownEncoding name) ∨ ∃ f, fault = .unusableEncoding f := by
  rcases bind_eq_error_iff.1 h with h | ⟨content, -, h⟩
  · obtain ⟨f, -, rfl⟩ := mapError_eq_error_iff.1 h
    exact .inl ⟨f, rfl⟩
  · split at h
    · cases h
    · cases h
      exact .inr (.inl rfl)
    · rename_i name _
      cases h
      exact .inr (.inr (.inl ⟨name, rfl⟩))
    · rename_i f _
      cases h
      exact .inr (.inr (.inr ⟨f, rfl⟩))

/-- Whether a fault of the project at a path is one of those that it is left out for. -/
def IsLeftOutFor (path : String) (fault : SourceFault) : Prop :=
  (∃ f, fault = .disk f) ∨ fault = .malformedProject path ∨ (∃ f, fault = .unusableEncoding f) ∨
    fault = .pattern .deepWithinName

/-- Whether a fault of a project is one of those that end the scan of its solution. -/
def IsFinal (fault : SourceFault) : Prop :=
  (∃ l, fault = .loop l) ∨ (∃ name, fault = .unknownEncoding name) ∨ fault = .pattern .absolute

/-- **A project fails for its file or for its specifications**, and either it is left out or it ends
the scan. -/
theorem isSkippable_iff_of_sources? (h : sources? d path = .error fault) :
    (fault.isSkippable = true ↔ IsLeftOutFor path fault) ∧
      (fault.isSkippable = false ↔ IsFinal fault) := by
  have hfault : ((∃ f, fault = .disk f) ∨ fault = .malformedProject path ∨
      (∃ name, fault = .unknownEncoding name) ∨ ∃ f, fault = .unusableEncoding f) ∨
        IsOfItems fault := by
    rcases bind_eq_error_iff.1 h with h | ⟨document, -, h⟩
    · exact .inl (fault_of_document? h)
    · exact .inr (fault_of_sourcesOf? h)
  rcases hfault with (⟨f, rfl⟩ | rfl | ⟨name, rfl⟩ | ⟨f, rfl⟩) | ⟨_ | _, rfl⟩ | ⟨f, rfl⟩ | ⟨l, rfl⟩
  all_goals simp [SourceFault.isSkippable, IsLeftOutFor, IsFinal]

end Project

namespace Workspace

section

-- Here it does not matter how the sources of a project are found.
attribute [local irreducible] Project.sources?

variable {w : Workspace} {path path' : String} {base : Location} {directory : Path}
  {before after : List Location} {project : Location} {fault : SourceFault}

/-- Whether the sources of a project are known or the project is left out. -/
def Passes (w : Workspace) (project : Location) : Prop :=
  ∀ fault, Project.sources? w.disk project.text = .error fault → fault.isSkippable = true

theorem sourcesOfAll_cons (project : Location) (projects : List Location) :
    w.sourcesOfAll (project :: projects) =
      match Project.sources? w.disk project.text with
      | .ok sources => do
        let more ← w.sourcesOfAll projects
        pure (sources ++ more)
      | .error fault => if fault.isSkippable then w.sourcesOfAll projects else .error fault := rfl

theorem sourcesOfAll_append (before after : List Location) :
    w.sourcesOfAll (before ++ after) = (do
      let sources ← w.sourcesOfAll before
      let more ← w.sourcesOfAll after
      pure (sources ++ more)) := by
  induction before with
  | nil =>
    show w.sourcesOfAll after = (w.sourcesOfAll after).bind fun more ↦ .ok ([] ++ more)
    cases w.sourcesOfAll after <;> rfl
  | cons p before ih =>
    rw [List.cons_append, sourcesOfAll_cons, sourcesOfAll_cons]
    cases Project.sources? w.disk p.text with
    | ok sources =>
      simp only [ih, bind_assoc, pure_bind, List.append_assoc]
    | error fault =>
      cases hskip : fault.isSkippable with
      | true => simpa [hskip] using ih
      | false => simp [hskip]; rfl

/-- A project that is left out changes nothing. -/
theorem sourcesOfAll_skip (hfault : Project.sources? w.disk project.text = .error fault)
    (hskip : fault.isSkippable = true) :
    w.sourcesOfAll (before ++ project :: after) = w.sourcesOfAll (before ++ after) := by
  have hproject : w.sourcesOfAll (project :: after) = w.sourcesOfAll after := by
    rw [sourcesOfAll_cons, hfault]
    exact if_pos hskip
  rw [sourcesOfAll_append, sourcesOfAll_append, hproject]

/-- Projects that pass have sources. -/
theorem exists_sourcesOfAll {projects : List Location} (h : ∀ p ∈ projects, w.Passes p) :
    ∃ sources, w.sourcesOfAll projects = .ok sources := by
  induction projects with
  | nil => exact ⟨[], rfl⟩
  | cons p projects ih =>
    obtain ⟨hp, hprojects⟩ := List.forall_mem_cons.1 h
    obtain ⟨more, hmore⟩ := ih hprojects
    rw [sourcesOfAll_cons]
    split
    · rename_i sources _
      exact exists_bind_eq_ok hmore ⟨sources ++ more, rfl⟩
    · rename_i fault hfault
      exact ⟨more, (if_pos (hp fault hfault)).trans hmore⟩

/-- A project that is not left out stops the search. -/
theorem sourcesOfAll_stop (hfault : Project.sources? w.disk project.text = .error fault)
    (hstop : fault.isSkippable = false) (h : ∀ p ∈ before, w.Passes p) :
    w.sourcesOfAll (before ++ project :: after) = .error fault := by
  obtain ⟨sources, hsources⟩ := exists_sourcesOfAll h
  have hproject : w.sourcesOfAll (project :: after) = .error fault := by
    rw [sourcesOfAll_cons, hfault]
    exact if_neg (by simp [hstop])
  rw [sourcesOfAll_append, hsources, hproject]
  rfl

/-! ### Solutions -/

/-- Whether the file at a path is a solution that lies in a directory and has given entries; the
paths of sources are reported from the real location of the directory. -/
structure IsSolution (w : Workspace) (path : String) (base : Location) (directory : Path)
    (entries : List String) : Prop where
  base_eq : w.baseOf path = .ok base
  directory_eq : (Path.ofText path).parent = directory
  entries_eq : ∃ content, w.disk.read? (Path.ofText path).text = .ok content ∧
    Solution.paths (Solution.textOf content) = entries

/-- Where the project of an entry is. -/
def projectAt? (w : Workspace) (directory : Path) (entry : String) : Except SourceFault Location :=
  Solution.projectAt? w.disk directory entry

/-- Scans the sources of projects, each of them once. -/
def scanProjects (w : Workspace) (base : Location) (projects : List Location) :
    Except SourceFault (List FileReport) := do
  let sources ← w.sourcesOfAll projects
  w.scanFiles ((Project.distinct sources).map (w.sourceFile base))

variable {entries fore aft : List String} {entry : String}

/-- The projects of a solution are those of its entries. -/
theorem IsSolution.projects?_eq (h : w.IsSolution path base directory entries) :
    Solution.projects? w.disk path = entries.mapM (w.projectAt? directory) := by
  obtain ⟨content, hread, rfl⟩ := h.entries_eq
  rw [Solution.projects?, hread, h.directory_eq]
  rfl

/-- A solution is scanned by its entries. -/
theorem IsSolution.scanSolution_eq (h : w.IsSolution path base directory entries) :
    w.scanSolution path = entries.mapM (w.projectAt? directory) >>= w.scanProjects base := by
  rw [scanSolution, h.base_eq, h.projects?_eq]
  rfl

theorem IsSolution.scanSolution_eq_of_mapM {projects : List Location}
    (h : w.IsSolution path base directory entries)
    (hprojects : entries.mapM (w.projectAt? directory) = .ok projects) :
    w.scanSolution path = w.scanProjects base projects := by
  rw [h.scanSolution_eq, hprojects]
  rfl

/-- Projects that pass are scanned. -/
theorem exists_scanProjects {projects : List Location} (hworkers : 1 ≤ w.workers)
    (h : ∀ p ∈ projects, w.Passes p) : ∃ reports, w.scanProjects base projects = .ok reports := by
  obtain ⟨sources, hsources⟩ := exists_sourcesOfAll h
  exact exists_bind_eq_ok hsources ⟨_, scanFiles_eq_map w _ hworkers⟩

/-- **A project that cannot be loaded is left out, unless its fault is one of those that are not
skippable.** Let two solutions lie in one directory, and let the first have one more entry, for a
project with a fault. The fault is skippable if the file of the project cannot be read, or is no
well-formed document, or declares an encoding that is known but cannot be used, or if there is a
pattern with `**` within a name or one that comes to a path that is too long; and only then. Links
that lead back to themselves, an encoding that is not known and a pattern that begins at the root are
not skippable. If the fault is skippable, the scans of the two solutions are the same. Otherwise the
scan of the first one ends with the fault, also where the scan of the second one has reports, because
the projects of all other entries are found and pass. -/
theorem scanSolution_skips (h : w.IsSolution path base directory (fore ++ entry :: aft))
    (h' : w.IsSolution path' base directory (fore ++ aft))
    (hproject : w.projectAt? directory entry = .ok project)
    (hfault : Project.sources? w.disk project.text = .error fault) :
    ((fault.isSkippable = true ↔ Project.IsLeftOutFor project.text fault) ∧
      (fault.isSkippable = false ↔ Project.IsFinal fault)) ∧
    (fault.isSkippable = true → w.scanSolution path = w.scanSolution path') ∧
    ∀ before after, fore.mapM (w.projectAt? directory) = .ok before →
      aft.mapM (w.projectAt? directory) = .ok after → (∀ p ∈ before ++ after, w.Passes p) →
      1 ≤ w.workers → ∃ reports, w.scanSolution path' = .ok reports ∧
        w.scanSolution path = if fault.isSkippable then .ok reports else .error fault := by
  have hsame : fault.isSkippable = true → w.scanSolution path = w.scanSolution path' := by
    intro hskip
    rw [h.scanSolution_eq, h'.scanSolution_eq, List.mapM_append, List.mapM_append, List.mapM_cons,
      hproject]
    cases fore.mapM (w.projectAt? directory) with
    | error fault => rfl
    | ok before =>
      cases aft.mapM (w.projectAt? directory) with
      | error fault => rfl
      | ok after =>
        show w.scanProjects base (before ++ project :: after) =
          w.scanProjects base (before ++ after)
        rw [scanProjects, sourcesOfAll_skip hfault hskip, scanProjects]
  refine ⟨Project.isSkippable_iff_of_sources? hfault, hsame, ?_⟩
  intro before after hbefore hafter hpass hworkers
  have hprojects' : (fore ++ aft).mapM (w.projectAt? directory) = .ok (before ++ after) :=
    mapM_append_eq_ok_iff.2 ⟨before, after, hbefore, hafter, rfl⟩
  obtain ⟨reports, hreports⟩ := @exists_scanProjects w base _ hworkers hpass
  have hother : w.scanSolution path' = .ok reports :=
    (h'.scanSolution_eq_of_mapM hprojects').trans hreports
  refine ⟨reports, hother, ?_⟩
  split
  · rename_i hskip
    rw [hsame hskip, hother]
  · rename_i hskip
    have hprojects : (fore ++ entry :: aft).mapM (w.projectAt? directory) =
        .ok (before ++ project :: after) :=
      mapM_append_eq_ok_iff.2 ⟨before, project :: after, hbefore,
        mapM_cons_eq_ok_iff.2 ⟨project, after, hproject, hafter, rfl⟩, rfl⟩
    have hbeforepass : ∀ p ∈ before, w.Passes p :=
      fun p hp ↦ hpass p (List.mem_append_left after hp)
    rw [h.scanSolution_eq_of_mapM hprojects, scanProjects,
      sourcesOfAll_stop hfault (Bool.eq_false_iff.2 hskip) hbeforepass]
    rfl

end

/-! ### Projects of one directory -/

/-- An entry for a project. -/
def entryOf (name : String) : Solution.Entry where
  kind := "00000000-0000-0000-0000-000000000000"
  name := "x"
  path := name
  id := "00000000-0000-0000-0000-000000000000"

/-- A solution that names projects in its own directory. -/
def solutionOf (names : List String) : String :=
  Solution.written (names.map fun name ↦ (.entry (entryOf name), .lineFeed)) (.other "")

theorem head?_solutionOf (names : List String) :
    (solutionOf names).toList.head? ≠ some Utf8.byteOrderMark := by
  cases names with
  | nil => decide
  | cons name names =>
    rw [solutionOf, List.map_cons, Solution.written, String.toList_append, String.toList_append,
      Solution.Line.text, Solution.Entry.toList_text_eq_cons]
    exact fun h ↦ absurd (Option.some.inj h) (by decide)

/-- The solution names these projects, if they can be written and are some. -/
theorem paths_solutionOf {names : List String}
    (h : ∀ name ∈ names, (entryOf name).WellFormed ∧ (entryOf name).isProject = true) :
    Solution.paths (Text.Newline.unify (solutionOf names).toList) = names := by
  have hlines : ∀ line ∈ names.map fun name ↦
      (Solution.Line.entry (entryOf name), Solution.LineEnd.lineFeed), line.1.WellFormed := by
    intro line hline
    obtain ⟨name, hname, rfl⟩ := List.mem_map.1 hline
    exact (h name hname).1
  rw [solutionOf, Solution.paths_written hlines (by decide), Solution.projectsOf]
  clear hlines
  induction names with
  | nil => rfl
  | cons name names ih =>
    obtain ⟨hname, hnames⟩ := List.forall_mem_cons.1 h
    simp only [List.map_cons, List.cons_append, Solution.Line.declared?, List.filterMap_cons,
      List.filter_cons_of_pos hname.2, ih hnames]
    rfl

/-- A text in the root directory is a solution that names projects. -/
theorem isSolution_root {w : Workspace} {files : Entries} {name : String} {names : List String}
    (hdisk : w.disk = ⟨files, []⟩) (hname : Disk.IsPlain name)
    (hlookup : files.lookup name = some (.file (solutionOf names).toUTF8))
    (hnames : ∀ name ∈ names, (entryOf name).WellFormed ∧ (entryOf name).isProject = true) :
    w.IsSolution name [] ⟨"", []⟩ names := by
  refine ⟨?_, ?_, (solutionOf names).toUTF8, ?_, ?_⟩
  · rw [baseOf, hdisk, hname.ofText_eq, hname.resolve?_eq hlookup (by simp)]
    rfl
  · rw [hname.ofText_eq]
    rfl
  · rw [hname.text_ofText, Disk.read?, hdisk, hname.find?_eq hlookup (by simp)]
  · rw [Solution.textOf, Utf8.fileText_toUTF8 (head?_solutionOf names), paths_solutionOf hnames]

/-- In a directory without links no name is that of a link. -/
theorem lookup_ne_link {files : Entries} (hsound : files.Sound)
    (hlinks : ∀ e ∈ files, ∀ target, e.2 ≠ .link target) (name target : String) :
    files.lookup name ≠ some (.link target) :=
  fun hlookup ↦ hlinks _ (hsound.lookup_eq_iff.1 hlookup) target rfl

/-- The project of an entry for a file in the root directory. -/
theorem projectAt?_root {w : Workspace} {files : Entries} {name : String}
    (hdisk : w.disk = ⟨files, []⟩) (hname : Disk.IsPlain name ∧ '\x00' ∉ name.toList ∧
      Path.withSlashes name = name) (hlink : ∀ target, files.lookup name ≠ some (.link target)) :
    w.projectAt? ⟨"", []⟩ name = .ok [name] := by
  obtain ⟨hplain, hnul, hslashes⟩ := hname
  refine Solution.projectAt?_eq_ok_iff.2 ⟨hnul, ?_⟩
  rw [hdisk, hslashes, hplain.ofText_eq]
  exact hplain.resolve?_of_not_link hlink ""

/-- The document of a project in the root directory. -/
theorem document?_root {files : Entries} {name text : String} {document : Xml.Document}
    (hname : Disk.IsPlain name) (hlookup : files.lookup name = some (.file text.toUTF8))
    (hpath : (Path.ofText (Location.text [name])).text = Location.text [name])
    (hread : Xml.Document.read? text.toUTF8.toList = .ok document) :
    Project.document? ⟨files, []⟩ (Location.text [name]) = .ok document := by
  have hfind : (Disk.mk files []).find? (Location.text [name]) = .ok (.file text.toUTF8) :=
    hname.find?_location hlookup nofun
  refine bind_eq_ok_iff.2 ⟨text.toUTF8, ?_, ?_⟩
  · rw [hpath, mapError_eq_ok_iff]
    exact Disk.read?_eq_ok_iff.2 hfind
  · rw [hread]
    rfl

/-! ### A project that stops its solution -/

/-- A project with one item. -/
def itemProject (specification : String) : String :=
  "<Project><Compile Include=\"" ++ specification ++ "\"/></Project>"

/-- The document of this project. -/
def itemDocument (specification : String) : Xml.Document where
  root := ⟨⟨none, "Project"⟩, []⟩
  below := [⟨⟨none, "Compile"⟩, [(⟨none, "Include"⟩, specification)]⟩]

/-- A pattern that begins at the root, and the name of a source. -/
def specifications : List String := ["/x/*.cs", "Q.cs"]

theorem element?_root : Xml.Content.element? (.empty false) .standard ⟨none, "Project"⟩ [] =
    some (⟨⟨none, "Project"⟩, []⟩, .standard) := by
  rw [Xml.Content.element?, Xml.valuesOf?_plain _ (by decide) (by simp)]
  decide +kernel

theorem element?_item {specification : String} (h : specification ∈ specifications) :
    Xml.Content.element? (.empty false) .standard ⟨none, "Compile"⟩
        [(⟨none, "Include"⟩, specification.toList)] =
      some (⟨⟨none, "Compile"⟩, [(⟨none, "Include"⟩, specification)]⟩, .standard) := by
  have hplain : Xml.IsPlainValue specification.toList := by
    revert specification
    decide +kernel
  rw [Xml.Content.element?, Xml.valuesOf?_plain _ (by simp) (by simpa using hplain)]
  clear hplain
  revert specification
  decide +kernel

theorem read?_itemProject {specification : String} (h : specification ∈ specifications) :
    Xml.Document.read? (itemProject specification).toUTF8.toList =
      .ok (itemDocument specification) := by
  have htext : ∀ s ∈ specifications, Xml.Encoding.textOf? (itemProject s).toUTF8.toList =
      .ok (.standard, (itemProject s).toList) := by
    decide +kernel
  have hchars : ∀ s ∈ specifications, (itemProject s).toList.all Xml.isChar = true := by
    decide +kernel
  have hprolog : ∀ s ∈ specifications, Xml.Document.prolog
      ((Text.Newline.unify (itemProject s).toList).length + 1)
      Xml.Declaration.standard.standsAlone (Text.Newline.unify (itemProject s).toList) =
        some (.empty false, (itemProject s).toList) := by
    rw [specifications, List.forall_mem_cons, List.forall_mem_singleton]
    exact ⟨rfl, rfl⟩
  have htokens : ∀ s ∈ specifications, Xml.Content.tokensOf? (itemProject s).toList =
      some [.opening ⟨none, "Project"⟩ [] false,
        .opening ⟨none, "Compile"⟩ [(⟨none, "Include"⟩, s.toList)] true, .closing "Project"] := by
    decide +kernel
  refine Xml.Document.read?_of_content (htext _ h) (hchars _ h) (hprolog _ h) (htokens _ h) rfl
    (Xml.Content.elements_opening element?_root (Xml.Content.elements_empty (element?_item h) ?_))
  rw [show Xml.Content.written ⟨none, "Project"⟩ = "Project" by decide +kernel]
  exact Xml.Content.elements_closing

/-- A workspace with a project that has a pattern from the root, another one that has a source, and
solutions that name both of them and the second one alone. -/
def rooted : Workspace where
  disk := ⟨[("a.sln", .file (solutionOf ["p.csproj", "q.csproj"]).toUTF8),
    ("b.sln", .file (solutionOf ["q.csproj"]).toUTF8),
    ("p.csproj", .file (itemProject "/x/*.cs").toUTF8),
    ("q.csproj", .file (itemProject "Q.cs").toUTF8),
    ("Q.cs", .file Concrete.sampleText.toUTF8)], []⟩
  scanner := ⟨.ofAll (FrontEnd.ofLanguage Concrete.sampleParse), Markers.standard.accepts⟩
  sizeLimit := 1000000
  workers := 2

theorem sound_rooted : rooted.disk.root.Sound :=
  .intro (by decide) (by decide) (by simp [rooted])

theorem lookup_rooted_ne_link (name target : String) :
    rooted.disk.root.lookup name ≠ some (.link target) :=
  lookup_ne_link sound_rooted (by simp [rooted]) name target

/-- The pattern is refused before the disk is looked at. -/
theorem sources?_rooted : Project.sources? rooted.disk (Location.text ["p.csproj"]) =
    .error (.pattern .absolute) := by
  have hdocument : Project.document? rooted.disk (Location.text ["p.csproj"]) =
      .ok (itemDocument "/x/*.cs") :=
    document?_root (by decide) rfl (by decide +kernel) (read?_itemProject (by decide))
  have hparent : (Path.ofText (Location.text ["p.csproj"])).parent = ⟨"/", []⟩ := by decide +kernel
  have hitems : (itemDocument "/x/*.cs").elements.mapM (Project.items? rooted.disk ⟨"/", []⟩) =
      .error (.pattern .absolute) := by
    decide +kernel
  refine bind_eq_error_iff.2 (.inr ⟨_, hdocument, ?_⟩)
  rw [hparent]
  exact bind_eq_error_iff.2 (.inl hitems)

theorem sources?_rooted_other : Project.sources? rooted.disk (Location.text ["q.csproj"]) =
    .ok [["Q.cs"]] := by
  have hdocument : Project.document? rooted.disk (Location.text ["q.csproj"]) =
      .ok (itemDocument "Q.cs") :=
    document?_root (by decide) rfl (by decide +kernel) (read?_itemProject (by decide))
  have hparent : (Path.ofText (Location.text ["q.csproj"])).parent = ⟨"/", []⟩ := by decide +kernel
  have hpath : (Path.mk "/" []).join (.ofText "Q.cs") = ⟨"/", ["Q.cs"]⟩ := by decide +kernel
  have hresolved : rooted.disk.resolve? ⟨"/", ["Q.cs"]⟩ = .ok ["Q.cs"] :=
    Disk.IsPlain.resolve?_of_not_link (by decide) (lookup_rooted_ne_link "Q.cs") "/"
  have hsdk : Project.hasSdk (itemDocument "Q.cs") = false := by decide +kernel
  have hinclude : (itemDocument "Q.cs").elements.flatMap (Project.partsUnder "Include") =
      ["Q.cs"] := by
    decide +kernel
  have hremove : (itemDocument "Q.cs").elements.flatMap (Project.partsUnder "Remove") = [] := by
    decide +kernel
  have hselects := Project.selects_distinct [["Q.cs"]] []
  rw [show Project.distinct _ = [["Q.cs"]] by decide +kernel] at hselects
  refine (Project.sources?_eq_ok_iff sound_rooted).2
    ⟨_, hdocument, [["Q.cs"]], [], [], ?_, hselects⟩
  rw [hparent]
  refine ⟨⟨[["Q.cs"]], ?_, .cons hresolved .nil⟩, ?_, ?_⟩
  · rw [hinclude]
    exact .cons (.path (by decide +kernel) (by rw [hpath, hresolved])) .nil
  · rw [if_neg (by simp [hsdk])]
  · rw [hremove]
    exact .nil

theorem projectAt?_rooted {name : String} (hname : name ∈ ["p.csproj", "q.csproj"]) :
    rooted.projectAt? ⟨"", []⟩ name = .ok [name] := by
  refine projectAt?_root rfl ?_ (lookup_rooted_ne_link name)
  revert name
  decide +kernel

/-- The project keeps its solution from being scanned, and so the report on the source of the other
project is lost. -/
theorem scanSolution_skips_rooted :
    rooted.IsSolution "a.sln" [] ⟨"", []⟩ ["p.csproj", "q.csproj"] ∧
      rooted.IsSolution "b.sln" [] ⟨"", []⟩ ["q.csproj"] ∧
      rooted.projectAt? ⟨"", []⟩ "p.csproj" = .ok ["p.csproj"] ∧
      Project.sources? rooted.disk "/p.csproj" = .error (.pattern .absolute) ∧
      rooted.scanSolution "a.sln" = .error (.pattern .absolute) ∧
      rooted.scanSolution "b.sln" = .ok [rooted.scanFile "/Q.cs" (some "Q.cs")] := by
  have h : rooted.IsSolution "a.sln" [] ⟨"", []⟩ ["p.csproj", "q.csproj"] :=
    isSolution_root rfl (by decide) rfl (by decide +kernel)
  have h' : rooted.IsSolution "b.sln" [] ⟨"", []⟩ ["q.csproj"] :=
    isSolution_root rfl (by decide) rfl (by decide +kernel)
  have hproject := projectAt?_rooted (by decide : "p.csproj" ∈ _)
  have hother := projectAt?_rooted (by decide : "q.csproj" ∈ _)
  have hprojects : ["q.csproj"].mapM (rooted.projectAt? ⟨"", []⟩) = .ok [["q.csproj"]] :=
    mapM_eq_ok_iff.2 (.cons hother .nil)
  have hpass : ∀ p ∈ [] ++ [["q.csproj"]], rooted.Passes p := by
    intro p hp fault hfault
    cases List.mem_singleton.1 hp
    cases sources?_rooted_other.symm.trans hfault
  obtain ⟨-, -, hstop⟩ :=
    @scanSolution_skips rooted "a.sln" "b.sln" _ _ _ _ [] ["q.csproj"] _ h h' hproject
      sources?_rooted
  obtain ⟨reports, -, hscan⟩ := hstop [] [["q.csproj"]] rfl hprojects hpass (by decide)
  have hsources : rooted.sourcesOfAll [["q.csproj"]] = .ok [["Q.cs"]] := by
    rw [sourcesOfAll_cons, sources?_rooted_other]
    rfl
  have hfiles : rooted.scanSolution "b.sln" = .ok [rooted.scanFile "/Q.cs" (some "Q.cs")] := by
    rw [h'.scanSolution_eq_of_mapM hprojects, scanProjects, hsources]
    rfl
  exact ⟨h, h', hproject, sources?_rooted, hscan, hfiles⟩

end Workspace

end CommentScope
