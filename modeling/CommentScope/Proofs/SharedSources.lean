import CommentScope.Proofs.CompiledFiles
import CommentScope.Proofs.RealLocations
import CommentScope.Proofs.Reports
import CommentScope.Proofs.SkippedProjects
import CommentScope.Proofs.WrittenSolutions

/-!
# Sources that projects share

The projects of a solution may be named more than once, and they may compile the same files. A scan
of the solution reports on each file once, where it comes first (`Workspace.scanSolution_covers`). A
project that compiles nothing but what the projects in front of it compile makes no difference, so
neither does one that is named again.
-/

namespace CommentScope

open Outcome

/-! ### Distinct locations -/

namespace Project

variable {before more after : List Location}

/-- What is there already is not added again. -/
theorem distinct_append_of_subset (h : more ⊆ before) :
    distinct (before ++ more) = distinct before := by
  induction more using List.reverseRecOn with
  | nil => rw [List.append_nil]
  | append_singleton more l ih =>
    obtain ⟨hmore, hl⟩ := List.append_subset.1 h
    have hknown : l ∈ distinct (before ++ more) :=
      mem_distinct.2 (List.mem_append_left _ (hl (List.mem_singleton_self l)))
    rw [← List.append_assoc, distinct_concat, if_pos hknown, ih hmore]

/-- **Locations that are there already make no difference.** -/
theorem distinct_skip (h : more ⊆ before) (after : List Location) :
    distinct (before ++ (more ++ after)) = distinct (before ++ after) := by
  have hsame : distinct (before ++ more) = distinct before := distinct_append_of_subset h
  rw [← List.append_assoc, distinct, List.foldl_append, ← distinct, hsame, distinct, distinct,
    List.foldl_append]

end Project

namespace Workspace

variable {w : Workspace} {path : String} {base : Location} {projects fore aft : List Location}
  {project : Location} {compiled compiled' : List (List Location)} {sources : List Location}

/-- A file that can be read is in a directory, where the paths of its sources begin. -/
theorem exists_baseOf (hsound : w.disk.root.Sound) {content : ByteArray}
    (hread : w.disk.read? (Path.ofText path).text = .ok content) :
    ∃ base entries, w.baseOf path = .ok base ∧ w.disk.at? base = some (.dir entries) := by
  have hfind := Disk.read?_eq_ok_iff.1 hread
  obtain ⟨l, hl, hat⟩ := Disk.resolve?_of_find? hsound hfind nofun
  have hne : l ≠ [] := by
    rintro rfl
    cases hat
  rw [← List.dropLast_append_getLast hne] at hat
  obtain ⟨entries, hentries⟩ := Entries.exists_dir_of_at? hat (List.cons_ne_nil _ _)
  refine ⟨l.dropLast, entries, ?_, hentries⟩
  rw [baseOf, hl]
  rfl

/-! ### The sources of a solution -/

/-- Whether locations are those of lists, each of them once and in the order in which they first
appear. -/
structure Merges (lists : List (List Location)) (merged : List Location) : Prop where
  mem_iff : ∀ l, l ∈ merged ↔ ∃ ls ∈ lists, l ∈ ls
  once : merged.Nodup
  ordered : merged.Pairwise fun a b ↦ lists.flatten.idxOf a < lists.flatten.idxOf b

theorem merges_distinct (lists : List (List Location)) :
    Merges lists (Project.distinct lists.flatten) := by
  have hordered := Project.pairwise_distinct_filter (fun _ ↦ true) lists.flatten
  rw [List.filter_eq_self.2 fun _ _ ↦ rfl] at hordered
  exact {
    mem_iff := fun l ↦ by rw [Project.mem_distinct, List.mem_flatten]
    once := hordered.imp fun hlt ↦ ne_of_apply_ne lists.flatten.idxOf (Nat.ne_of_lt hlt)
    ordered := hordered }

/-- Only one list of locations is that of given lists. -/
theorem Merges.unique {lists : List (List Location)} {merged merged' : List Location}
    (h : Merges lists merged) (h' : Merges lists merged') : merged = merged' :=
  eq_of_mem_iff_of_key h.ordered h'.ordered fun l ↦ by rw [h.mem_iff, h'.mem_iff]

/-- Whether projects compile given files. -/
def Compiles (w : Workspace) : List Location → List (List Location) → Prop :=
  List.Forall₂ fun project ls ↦ Project.sources? w.disk project.text = .ok ls

/-- Whether a project adds nothing to others: it is among them, or all its files are files of
theirs. -/
def AddsNothing (w : Workspace) (others : List Location) (project : Location) : Prop :=
  project ∈ others ∨ ∃ ls, Project.sources? w.disk project.text = .ok ls ∧
    ∀ l ∈ ls, ∃ other ∈ others, ∃ ms, Project.sources? w.disk other.text = .ok ms ∧ l ∈ ms

section

-- Here it does not matter how the sources of a project are found.
attribute [local irreducible] Project.sources?

theorem Compiles.sourcesOfAll_eq (h : w.Compiles projects compiled) :
    w.sourcesOfAll projects = .ok compiled.flatten := by
  induction h with
  | nil => rfl
  | @cons project ls projects compiled hproject _ ih =>
    rw [sourcesOfAll_cons, hproject, ih]
    rfl

theorem Compiles.append_iff : w.Compiles (fore ++ aft) compiled ↔
    ∃ before after, w.Compiles fore before ∧ w.Compiles aft after ∧ compiled = before ++ after := by
  simp only [Compiles, ← mapM_eq_ok_iff, mapM_append_eq_ok_iff]

theorem Compiles.exists_of_mem (h : w.Compiles projects compiled) (hproject : project ∈ projects) :
    ∃ ls ∈ compiled, Project.sources? w.disk project.text = .ok ls := by
  obtain ⟨before, after, rfl⟩ := List.append_of_mem hproject
  obtain ⟨cs, cs', -, hafter, rfl⟩ := append_iff.1 h
  cases hafter with
  | cons hls _ => exact ⟨_, List.mem_append_right _ List.mem_cons_self, hls⟩

/-- **A project that adds nothing makes no difference** to the sources that are scanned. -/
theorem distinct_sources_insert {before after : List (List Location)}
    (hfore : w.Compiles fore before) (haft : w.Compiles aft after) (h : w.AddsNothing fore project) :
    ∃ sources, w.sourcesOfAll (fore ++ project :: aft) = .ok sources ∧
      Project.distinct sources = Project.distinct (before ++ after).flatten := by
  obtain ⟨ls, hls, hsubset⟩ : ∃ ls, Project.sources? w.disk project.text = .ok ls ∧
      ls ⊆ before.flatten := by
    rcases h with hmem | ⟨ls, hls, hall⟩
    · obtain ⟨ls, hmem, hls⟩ := hfore.exists_of_mem hmem
      exact ⟨ls, hls, fun l hl ↦ List.mem_flatten.2 ⟨ls, hmem, hl⟩⟩
    · refine ⟨ls, hls, fun l hl ↦ ?_⟩
      obtain ⟨other, hother, ms, hms, hl⟩ := hall l hl
      obtain ⟨ms', hmem, hms'⟩ := hfore.exists_of_mem hother
      cases hms.symm.trans hms'
      exact List.mem_flatten.2 ⟨ms, hmem, hl⟩
  have hall : w.Compiles (fore ++ project :: aft) (before ++ ls :: after) :=
    Compiles.append_iff.2 ⟨before, ls :: after, hfore, .cons hls haft, rfl⟩
  refine ⟨_, hall.sourcesOfAll_eq, ?_⟩
  rw [List.flatten_append, List.flatten_cons, Project.distinct_skip hsubset, List.flatten_append]

/-- **A scan of a solution covers each source once.** Let the projects of a solution all compile some
files. Then the scan of the solution reports on these files, each of them once and in the order in
which they first appear, from project to project. The report on a file is the one of a scan of this
file alone, under its path from the directory in which the solution really is. And the reports are the
same for another solution in this directory that names one project more, if the projects in front of
that project compile all of its files. -/
theorem scanSolution_covers (hsound : w.disk.root.Sound) (hworkers : 1 ≤ w.workers)
    (hprojects : Solution.projects? w.disk path = .ok projects)
    (hcompile : w.Compiles projects compiled) :
    ∃ base sources reports, w.baseOf path = .ok base ∧ w.scanSolution path = .ok reports ∧
      Merges compiled sources ∧
      List.Forall₂ (fun l r ↦ w.scanFile? l.text (some (Location.wayText base l)) = .ok r)
        sources reports ∧
      ∀ path' fore project aft, projects = fore ++ aft → w.AddsNothing fore project →
        Solution.projects? w.disk path' = .ok (fore ++ project :: aft) →
        w.baseOf path' = .ok base → w.scanSolution path' = .ok reports := by
  obtain ⟨content, hread, -⟩ := bind_eq_ok_iff.1 hprojects
  obtain ⟨base, -, hbase, -⟩ := exists_baseOf hsound (mapError_eq_ok_iff.1 hread)
  have hscan {path : String} {projects sources : List Location} (hbase : w.baseOf path = .ok base)
      (hprojects : Solution.projects? w.disk path = .ok projects)
      (hsources : w.sourcesOfAll projects = .ok sources) : w.scanSolution path =
        .ok (((Project.distinct sources).map (w.sourceFile base)).map w.scanFound) :=
    bind_eq_ok_iff.2 ⟨base, hbase, bind_eq_ok_iff.2 ⟨projects, hprojects,
      bind_eq_ok_iff.2 ⟨sources, hsources, scanFiles_eq_map w _ hworkers⟩⟩⟩
  refine ⟨base, _, _, hbase, hscan hbase hprojects hcompile.sourcesOfAll_eq,
    merges_distinct compiled, ?_, ?_⟩
  · rw [List.map_map, List.forall₂_map_right_iff, List.forall₂_same]
    intro l _
    exact w.scanFile?_eq_ok l.text (some (Location.wayText base l))
  · rintro path' fore project aft rfl hnothing hprojects' hbase'
    obtain ⟨before, after, hfore, haft, rfl⟩ := Compiles.append_iff.1 hcompile
    obtain ⟨sources, hsources, hdistinct⟩ := distinct_sources_insert hfore haft hnothing
    rw [hscan hbase' hprojects' hsources, hdistinct]

end

/-! ### Two projects with the same sources -/

/-- A workspace with two projects that compile the same sources, and with solutions that name the
first of them once and twice. -/
def shared : Workspace where
  disk := ⟨[("a.sln", .file (solutionOf ["p.csproj", "q.csproj"]).toUTF8),
    ("b.sln", .file (solutionOf ["p.csproj", "q.csproj", "p.csproj"]).toUTF8),
    ("p.csproj", .file Project.bareProject.toUTF8), ("q.csproj", .file Project.bareProject.toUTF8),
    ("a.cs", .file Concrete.sampleText.toUTF8), ("b.cs", .file "".toUTF8)], []⟩
  scanner := ⟨.ofAll (FrontEnd.ofLanguage Concrete.sampleParse), Markers.standard.accepts⟩
  sizeLimit := 1000000
  workers := 2

theorem sound_shared : shared.disk.root.Sound :=
  .intro (by decide) (by decide) (by simp [shared])

theorem lookup_shared_ne_link (name target : String) :
    shared.disk.root.lookup name ≠ some (.link target) :=
  lookup_ne_link sound_shared (by simp [shared]) name target

/-- Both projects compile the two sources. -/
theorem sources?_shared {name : String} (hname : name ∈ ["p.csproj", "q.csproj"]) :
    Project.sources? shared.disk (Location.text [name]) = .ok [["a.cs"], ["b.cs"]] := by
  have hplain : Disk.IsPlain name := by
    revert name
    decide
  have hlookup : shared.disk.root.lookup name = some (.file Project.bareProject.toUTF8) := by
    simp only [List.mem_cons, List.not_mem_nil, or_false] at hname
    rcases hname with rfl | rfl <;> rfl
  have htext : (Path.ofText (Location.text [name])).text = Location.text [name] ∧
      (Path.ofText (Location.text [name])).parent = ⟨"/", []⟩ := by
    clear hplain hlookup
    revert name
    decide +kernel
  have hdocument : Project.document? shared.disk (Location.text [name]) =
      .ok ⟨Project.sdkElement, []⟩ :=
    document?_root hplain hlookup htext.1 Project.read?_bareProject
  have hresolved : ∀ source ∈ ["a.cs", "b.cs"],
      shared.disk.resolve? ((Path.mk "/" []).along [source]) = .ok [source] := by
    intro source hsource
    have hplain : Disk.IsPlain source := by
      revert source
      decide
    exact hplain.resolve?_of_not_link (lookup_shared_ne_link source) "/"
  have hfiles : shared.disk.filesBelow Project.enters ⟨"/", []⟩ = [["a.sln"], ["b.sln"],
      ["p.csproj"], ["q.csproj"], ["a.cs"], ["b.cs"]] := by
    rw [Disk.filesBelow, Disk.entries?_root, Option.getD_some]
    simp [shared, Disk.waysBelow, Disk.waysOfEntry, Disk.waysOf]
  have hsources : ([["a.sln"], ["b.sln"], ["p.csproj"], ["q.csproj"], ["a.cs"],
      ["b.cs"]] : List Location).filter (fun way ↦ Project.isSourceName (way.getLastD "")) =
        [["a.cs"], ["b.cs"]] := by
    decide +kernel
  have hselects := Project.selects_distinct [["a.cs"], ["b.cs"]] []
  rw [show Project.distinct _ = [["a.cs"], ["b.cs"]] by decide +kernel] at hselects
  have hsdk : Project.hasSdk ⟨Project.sdkElement, []⟩ = true := by decide +kernel
  refine (Project.sources?_eq_ok_iff sound_shared).2 ⟨_, hdocument, [], [["a.cs"], ["b.cs"]], [],
    ?_, hselects⟩
  rw [htext.2]
  refine ⟨⟨[], .nil, .nil⟩, ?_, .nil⟩
  rw [if_pos hsdk]
  refine ⟨[["a.cs"], ["b.cs"]], fun way ↦ ?_, by decide +kernel,
    .cons (hresolved "a.cs" (by decide)) (.cons (hresolved "b.cs" (by decide)) .nil)⟩
  rw [Project.hasSource_iff sound_shared, hfiles, hsources]

theorem projectAt?_shared {name : String} (hname : name ∈ ["p.csproj", "q.csproj"]) :
    shared.projectAt? ⟨"", []⟩ name = .ok [name] := by
  refine projectAt?_root rfl ?_ (lookup_shared_ne_link name)
  revert name
  decide +kernel

/-- Two sources are scanned, once each, from whichever of the solutions. -/
theorem scanSolution_covers_shared : ∃ a b,
    shared.scanFile? "/a.cs" (some "a.cs") = .ok a ∧ shared.scanFile? "/b.cs" (some "b.cs") = .ok b ∧
      shared.scanSolution "a.sln" = .ok [a, b] ∧ shared.scanSolution "b.sln" = .ok [a, b] := by
  have hp := projectAt?_shared (by decide : "p.csproj" ∈ _)
  have hq := projectAt?_shared (by decide : "q.csproj" ∈ _)
  have hsolution : shared.IsSolution "a.sln" [] ⟨"", []⟩ ["p.csproj", "q.csproj"] :=
    isSolution_root rfl (by decide) rfl (by decide +kernel)
  have hsolution' : shared.IsSolution "b.sln" [] ⟨"", []⟩ ["p.csproj", "q.csproj", "p.csproj"] :=
    isSolution_root rfl (by decide) rfl (by decide +kernel)
  have hprojects : Solution.projects? shared.disk "a.sln" = .ok [["p.csproj"], ["q.csproj"]] := by
    rw [hsolution.projects?_eq, mapM_eq_ok_iff]
    exact .cons hp (.cons hq .nil)
  have hprojects' : Solution.projects? shared.disk "b.sln" =
      .ok ([["p.csproj"], ["q.csproj"]] ++ ["p.csproj"] :: []) := by
    rw [hsolution'.projects?_eq, mapM_eq_ok_iff]
    exact .cons hp (.cons hq (.cons hp .nil))
  obtain ⟨base, sources, reports, hbase, hscan, hmerges, hreports, hsame⟩ :=
    scanSolution_covers sound_shared (by decide) hprojects
      (.cons (sources?_shared (by decide)) (.cons (sources?_shared (by decide)) .nil))
  cases hsolution.base_eq.symm.trans hbase
  have hdistinct : Project.distinct [[["a.cs"], ["b.cs"]], [["a.cs"], ["b.cs"]]].flatten =
      [["a.cs"], ["b.cs"]] := by
    decide +kernel
  obtain rfl : sources = [["a.cs"], ["b.cs"]] := hdistinct ▸ hmerges.unique (merges_distinct _)
  cases hreports with
  | cons ha hrest =>
    cases hrest with
    | cons hb hnone =>
      cases hnone
      refine ⟨_, _, ha, hb, hscan, ?_⟩
      exact hsame "b.sln" [["p.csproj"], ["q.csproj"]] ["p.csproj"] [] rfl (.inl (by decide))
        hprojects' hsolution'.base_eq

end Workspace

end CommentScope
