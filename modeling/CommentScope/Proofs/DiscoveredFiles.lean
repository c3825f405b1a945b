import CommentScope.Proofs.DirectoryWalk
import CommentScope.Sources.Discovery

/-!
# The files that are found below a directory

`Discovery.run` walks over a directory and keeps what can be scanned. What it finds is known without
the walk (`Discovery.run_finds`): it succeeds if the path leads to a directory, and then it has the
files that `Discovery.Finds` describes, each once, in the order of their relative paths. That these
are distinct rests on names without slashes, and that the order in which directories are listed does
not matter rests on the order of the result.
-/

namespace CommentScope

namespace Discovery

open Outcome

variable {φ : Type} {registry : Registry φ} {sizeLimit : Int} {d d' : Disk} {root : Location}
  {es : Entries} {way : Location} {f : SourceFile} {path : String}

/-- Whether a file is found on a way from a directory with given entries: what stands there is no
directory and does not lead to one, no directory on the way is skipped, its extension is known, and
it leads to a file that is not too large. -/
structure Finds (registry : Registry φ) (sizeLimit : Int) (d : Disk) (root : Location)
    (es : Entries) (way : Location) (f : SourceFile) : Prop where
  stands : ∃ thing, es.at? way = some thing ∧ d.isFolder ⟨"/", root ++ way⟩ thing = false
  entered : ∀ name ∈ way.dropLast, name ∉ skippedNames
  known : Text.lower (Path.suffixOf (way.getLastD "")) ∈ registry.knownExtensions
  leads : ∃ content, d.find? f.location.text = .ok (.file content) ∧ f.size = content.size ∧
    (content.size : Int) ≤ sizeLimit
  relative : f.relative = "/".intercalate way
  location : f.location = root ++ way

theorem isKnown_iff {name : String} :
    isKnown registry name = true ↔ Text.lower (Path.suffixOf name) ∈ registry.knownExtensions :=
  List.contains_iff_mem

theorem enters_iff {name : String} : enters name = true ↔ name ∉ skippedNames := by
  rw [enters, Bool.not_eq_true', ← Bool.not_eq_true, List.contains_iff_mem]

/-- The file on a way. -/
theorem fileAt?_eq_some_iff : fileAt? registry sizeLimit d root way = some f ↔
    ∃ content, d.find? (Location.text (root ++ way)) = .ok (.file content) ∧
      isKnown registry (way.getLastD "") = true ∧ (content.size : Int) ≤ sizeLimit ∧
        f = ⟨"/".intercalate way, root ++ way, content.size⟩ := by
  rw [fileAt?]
  constructor
  · intro h
    split at h
    · rename_i content hfound
      split at h
      · rename_i hfits
        obtain ⟨hknown, hsize⟩ := Bool.and_eq_true_iff.1 hfits
        cases h
        exact ⟨content, hfound, hknown, of_decide_eq_true hsize, rfl⟩
      · cases h
    · cases h
  · rintro ⟨content, hfound, hknown, hsize, rfl⟩
    simp only [hfound, hknown, decide_eq_true hsize, Bool.and_self, if_true]

/-- A file is found on a way that the walk lists. -/
theorem finds_iff : Finds registry sizeLimit d root es way f ↔
    d.Lists enters ⟨"/", root⟩ es way ∧ fileAt? registry sizeLimit d root way = some f := by
  rw [fileAt?_eq_some_iff]
  constructor
  · rintro ⟨hstands, hentered, hknown, ⟨content, hfound, hsize, hfits⟩, hrelative, hlocation⟩
    rw [hlocation] at hfound
    refine ⟨⟨hstands, fun name hname ↦ enters_iff.2 (hentered name hname)⟩, content, hfound,
      isKnown_iff.2 hknown, hfits, ?_⟩
    rw [← hrelative, ← hlocation, ← hsize]
  · rintro ⟨⟨hstands, hentered⟩, content, hfound, hknown, hfits, rfl⟩
    exact ⟨hstands, fun name hname ↦ enters_iff.1 (hentered name hname), isKnown_iff.1 hknown,
      ⟨content, hfound, rfl, hfits⟩, rfl, rfl⟩

/-- **What is found.** -/
theorem mem_files_iff (hsound : d.root.Sound) (h : d.entries? root.text = some es) :
    f ∈ files registry sizeLimit d root ↔ ∃ way, Finds registry sizeLimit d root es way f := by
  have hbase : d.entries? (Path.mk "/" root).text = some es := h
  rw [files, List.mem_mergeSort, List.mem_filterMap]
  simp only [finds_iff, Disk.mem_filesBelow_iff hsound hbase]

/-! ### Relative paths -/

/-- A way through a sound directory is written as its path from there. -/
theorem ofText_relative (hsound : es.Sound) (h : Finds registry sizeLimit d root es way f) :
    Path.ofText f.relative = ⟨"", way⟩ := by
  obtain ⟨thing, hat, -⟩ := h.stands
  rw [h.relative]
  exact Disk.ofText_intercalate (finds_iff.1 h).1.ne_nil (hsound.plain_way hat)

/-- **The path of a file is that of the directory, joined with the relative path.** -/
theorem join_relative (hsound : es.Sound) (h : Finds registry sizeLimit d root es way f) :
    (Path.mk "/" root).join (.ofText f.relative) = ⟨"/", f.location⟩ := by
  rw [ofText_relative hsound h, h.location]
  rfl

/-- Files with the same relative path are the same. -/
theorem eq_of_relative_eq {g : SourceFile} {way' : Location} (hsound : es.Sound)
    (h : Finds registry sizeLimit d root es way f) (h' : Finds registry sizeLimit d root es way' g)
    (heq : f.relative = g.relative) : f = g := by
  have hway : way = way' := by
    have hpaths := (ofText_relative hsound h).symm.trans
      ((congrArg Path.ofText heq).trans (ofText_relative hsound h'))
    exact congrArg Path.parts hpaths
  subst hway
  exact Option.some.inj ((finds_iff.1 h).2.symm.trans (finds_iff.1 h').2)

theorem relative_le_iff (a b : SourceFile) :
    decide (a.relative ≤ b.relative) = true ↔ a.relative ≤ b.relative :=
  decide_eq_true_iff

/-- **The files are in the order of their relative paths**, and no two of these are the same. -/
theorem pairwise_relative_lt (hsound : d.root.Sound) (h : d.entries? root.text = some es) :
    (files registry sizeLimit d root).Pairwise fun a b ↦ a.relative < b.relative := by
  have hes := Disk.sound_of_entries? hsound h
  have hnodup : (files registry sizeLimit d root).Nodup := by
    refine (List.mergeSort_perm _ _).nodup_iff.2 ((Disk.nodup_filesBelow hsound).filterMap ?_)
    intro way way' f hway hway'
    obtain ⟨_, _, _, _, hf⟩ := fileAt?_eq_some_iff.1 hway
    obtain ⟨_, _, _, _, hf'⟩ := fileAt?_eq_some_iff.1 hway'
    exact List.append_cancel_left (congrArg SourceFile.location (hf.symm.trans hf'))
  have hsorted : (files registry sizeLimit d root).Pairwise fun a b ↦ a.relative ≤ b.relative :=
    pairwise_mergeSort_of_key relative_le_iff _
  refine (hsorted.and hnodup).imp_of_mem ?_
  rintro a b ha hb ⟨hle, hne⟩
  obtain ⟨way, hway⟩ := (mem_files_iff hsound h).1 ha
  obtain ⟨way', hway'⟩ := (mem_files_iff hsound h).1 hb
  exact lt_of_le_of_ne hle fun heq ↦ hne (eq_of_relative_eq hes hway hway' heq)

theorem fileAt?_eq (h : d.Reordered d') (way : Location) :
    fileAt? registry sizeLimit d' root way = fileAt? registry sizeLimit d root way := by
  refine Option.ext fun f ↦ ?_
  simp only [fileAt?_eq_some_iff, h.find?_eq_file_iff]

/-- **The files do not depend on the order in which directories are listed.** -/
theorem files_eq (h : d.Reordered d') (hdir : d.entries? root.text = some es) :
    files registry sizeLimit d' root = files registry sizeLimit d root := by
  have hes := Disk.sound_of_entries? h.sound hdir
  have hperm := ((h.perm_filesBelow enters ⟨"/", root⟩).filterMap
    (fileAt? registry sizeLimit d root))
  have hsame : (d'.filesBelow enters ⟨"/", root⟩).filterMap (fileAt? registry sizeLimit d' root) =
      (d'.filesBelow enters ⟨"/", root⟩).filterMap (fileAt? registry sizeLimit d root) :=
    List.filterMap_congr fun way _ ↦ fileAt?_eq h way
  rw [files, files, hsame]
  refine (mergeSort_eq_of_perm relative_le_iff hperm ?_).symm
  intro a ha b hb heq
  obtain ⟨way, hway⟩ := (mem_files_iff h.sound hdir).1 (List.mem_mergeSort.2 ha)
  obtain ⟨way', hway'⟩ := (mem_files_iff h.sound hdir).1 (List.mem_mergeSort.2 hb)
  exact eq_of_relative_eq hes hway hway' heq

/-! ### What is found at a path -/

theorem run_of_resolve? (hroot : d.resolve? (.ofText path) = .ok root) :
    run registry sizeLimit d path =
      match d.isDirectory? root.text with
      | .ok true => .ok (files registry sizeLimit d root)
      | .ok false => .error (.notDirectory path)
      | .error fault => .error (.disk fault) := by
  rw [run, hroot]
  change Except.mapError SourceFault.disk (d.isDirectory? root.text) >>= _ = _
  cases d.isDirectory? root.text with
  | error fault => rfl
  | ok isDirectory => cases isDirectory <;> rfl

theorem run_of_loop {loop : Disk.LinkLoop} (hroot : d.resolve? (.ofText path) = .error loop) :
    run registry sizeLimit d path = .error (.loop loop) := by
  rw [run, hroot]
  rfl

/-- **The search succeeds if the path leads to a directory.** -/
theorem run_eq_ok_iff {found : List SourceFile} : run registry sizeLimit d path = .ok found ↔
    ∃ root es, d.resolve? (.ofText path) = .ok root ∧ d.entries? root.text = some es ∧
      found = files registry sizeLimit d root := by
  cases hroot : d.resolve? (.ofText path) with
  | error loop => simp [run_of_loop hroot]
  | ok root =>
    rw [run_of_resolve? hroot]
    constructor
    · intro h
      split at h
      · rename_i hdir
        obtain ⟨es, hes⟩ := Disk.isDirectory?_eq_ok_true_iff.1 hdir
        cases h
        exact ⟨root, es, rfl, hes, rfl⟩
      · cases h
      · cases h
    · rintro ⟨root', es, hsame, hes, rfl⟩
      cases hsame
      rw [Disk.isDirectory?_eq_ok_true_iff.2 ⟨es, hes⟩]

/-- The search at a path does not depend on the order in which directories are listed. -/
theorem run_eq (h : d.Reordered d') :
    run registry sizeLimit d' path = run registry sizeLimit d path := by
  cases hroot : d.resolve? (.ofText path) with
  | error loop => rw [run_of_loop hroot, run_of_loop ((h.resolve?_eq _).trans hroot)]
  | ok root =>
    rw [run_of_resolve? hroot, run_of_resolve? ((h.resolve?_eq _).trans hroot), h.isDirectory?_eq]
    split
    · rename_i hdir
      obtain ⟨es, hes⟩ := Disk.isDirectory?_eq_ok_true_iff.1 hdir
      rw [files_eq h hes]
    · rfl
    · rfl

/-- **What is found below the directory at a path** is what can be found there, each file once and in
the order of the relative paths, by which the files are reached from the directory. The search fails
if the path does not lead to a directory. It does not depend on the order in which directories are
listed. -/
theorem run_finds (hsound : d.root.Sound) :
    (∀ found, run registry sizeLimit d path = .ok found ↔
      ∃ root es, d.resolve? (.ofText path) = .ok root ∧ d.entries? root.text = some es ∧
        (∀ f, f ∈ found ↔ ∃ way, Finds registry sizeLimit d root es way f) ∧
        found.Pairwise (fun a b ↦ a.relative < b.relative) ∧
        ∀ f ∈ found, (Path.mk "/" root).join (.ofText f.relative) = ⟨"/", f.location⟩) ∧
    ∀ d', d.Reordered d' → run registry sizeLimit d' path = run registry sizeLimit d path := by
  refine ⟨fun found ↦ ?_, fun d' h ↦ run_eq h⟩
  rw [run_eq_ok_iff]
  constructor
  · rintro ⟨root, es, hroot, hdir, rfl⟩
    refine ⟨root, es, hroot, hdir, fun f ↦ mem_files_iff hsound hdir,
      pairwise_relative_lt hsound hdir, fun f hf ↦ ?_⟩
    obtain ⟨way, hway⟩ := (mem_files_iff hsound hdir).1 hf
    exact join_relative (Disk.sound_of_entries? hsound hdir) hway
  · rintro ⟨root, es, hroot, hdir, hmem, hsorted, -⟩
    refine ⟨root, es, hroot, hdir, eq_of_mem_iff_of_key hsorted
      (pairwise_relative_lt hsound hdir) fun f ↦ ?_⟩
    rw [hmem, mem_files_iff hsound hdir]

/-! ### A directory with sources -/

/-- A registry that knows one extension. -/
def sharp : Registry Unit := Registry.empty.register .csharp [".cs"] ()

/-- A disk with sources, one of them too large and one in a directory that is skipped. -/
def shelf : Disk where
  root := [("lib", .dir [("large.cs", .file "large".toUTF8), ("D.CS", .file "d".toUTF8)]),
    ("bin", .dir [("c.cs", .file "c".toUTF8)]), ("b.cs", .file "bb".toUTF8),
    ("a.cs", .link "b.cs")]
  here := []

theorem sound_shelf : shelf.root.Sound := by
  refine .intro (by decide) (by decide) ?_
  intro name inner hmem
  simp only [shelf, List.mem_cons, Prod.mk.injEq, FileTree.dir.injEq, reduceCtorEq, and_false,
    List.not_mem_nil, or_false, or_self] at hmem
  rcases hmem with ⟨-, rfl⟩ | ⟨-, rfl⟩ <;> exact .intro (by decide) (by decide) (by simp)

theorem find?_shelf_link : shelf.find? "/a.cs" = .ok (.file "bb".toUTF8) := by
  have hsteps : Disk.stepsOf "/a.cs" = ["a.cs"] := by decide +kernel
  have hturn : Disk.stepsOf "b.cs" = ["b.cs"] := by decide +kernel
  refine Disk.find?_eq_ok_iff.2 ⟨by decide, by decide, ["b.cs"], ?_, rfl⟩
  rw [hsteps]
  refine .step rfl (.turn (by decide) rfl rfl) ?_
  rw [hturn]
  exact .step rfl (.enter (by decide) rfl nofun) (.arrived _ _)

theorem entries?_shelf : shelf.entries? (Location.text []) = some shelf.root :=
  Disk.entries?_root shelf

/-- The sources on the disk. -/
def shelved : List SourceFile := [⟨"a.cs", ["a.cs"], 2⟩, ⟨"b.cs", ["b.cs"], 2⟩,
  ⟨"lib/D.CS", ["lib", "D.CS"], 1⟩]

theorem filesBelow_shelf : shelf.filesBelow enters ⟨"/", []⟩ =
    [["lib", "large.cs"], ["lib", "D.CS"], ["b.cs"], ["a.cs"]] := by
  have hdir : shelf.entries? (Path.mk "/" []).text = some shelf.root := entries?_shelf
  have hlink : shelf.isDirectory ((Path.mk "/" []).along ["a.cs"]).text = false := by
    have htext : ((Path.mk "/" []).along ["a.cs"]).text = "/a.cs" := by decide +kernel
    rw [htext, Disk.isDirectory, Disk.entries?, find?_shelf_link]
    rfl
  rw [Disk.filesBelow, hdir, Option.getD_some]
  have hlib : enters "lib" = true := by decide
  have hbin : enters "bin" = false := by decide
  simpa [shelf, Disk.waysBelow, Disk.waysOfEntry, Disk.waysOf, hlib, hbin] using hlink

theorem mem_shelved_iff (f : SourceFile) :
    f ∈ shelved ↔ ∃ way, Finds sharp 2 shelf [] shelf.root way f := by
  have hlarge : fileAt? sharp 2 shelf [] ["lib", "large.cs"] = none := by
    have hfound : shelf.find? "/lib/large.cs" = .ok (.file "large".toUTF8) :=
      Disk.find?_location sound_shelf (l := ["lib", "large.cs"]) rfl nofun (by decide)
    have htext : Location.text ([] ++ ["lib", "large.cs"]) = "/lib/large.cs" := by decide +kernel
    rw [fileAt?, htext, hfound]
    decide +kernel
  have hdeep : fileAt? sharp 2 shelf [] ["lib", "D.CS"] = some ⟨"lib/D.CS", ["lib", "D.CS"], 1⟩ :=
    fileAt?_eq_some_iff.2 ⟨"d".toUTF8, Disk.find?_location sound_shelf rfl nofun (by decide),
      by decide +kernel, by decide +kernel, by decide +kernel⟩
  have hfile : fileAt? sharp 2 shelf [] ["b.cs"] = some ⟨"b.cs", ["b.cs"], 2⟩ :=
    fileAt?_eq_some_iff.2 ⟨"bb".toUTF8, Disk.find?_location sound_shelf rfl nofun (by decide),
      by decide +kernel, by decide +kernel, by decide +kernel⟩
  have hlink : fileAt? sharp 2 shelf [] ["a.cs"] = some ⟨"a.cs", ["a.cs"], 2⟩ :=
    fileAt?_eq_some_iff.2 ⟨"bb".toUTF8, find?_shelf_link,
      by decide +kernel, by decide +kernel, by decide +kernel⟩
  have hdir : shelf.entries? (Path.mk "/" []).text = some shelf.root := entries?_shelf
  simp only [finds_iff, ← Disk.mem_filesBelow_iff sound_shelf hdir, filesBelow_shelf]
  simp [hlarge, hdeep, hfile, hlink, shelved, eq_comm]
  tauto

/-- The sources are found below the root. -/
theorem run_finds_shelf : shelf.root.Sound ∧ run sharp 2 shelf "/" = .ok shelved := by
  have hpath : Path.ofText "/" = ⟨"/", []⟩ := by decide +kernel
  have hroot : shelf.resolve? (.ofText "/") = .ok [] := by
    rw [hpath, Disk.resolve?_root]
  refine ⟨sound_shelf, ((run_finds sound_shelf).1 shelved).2
    ⟨[], shelf.root, hroot, entries?_shelf, mem_shelved_iff, by decide +kernel, by decide +kernel⟩⟩

end Discovery

end CommentScope
