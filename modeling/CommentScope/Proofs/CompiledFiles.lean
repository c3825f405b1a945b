import CommentScope.Proofs.DirectoryWalk
import CommentScope.Proofs.PlainDocuments
import CommentScope.Sources.Project
import Mathlib.Data.List.Forall2
import Mathlib.Data.List.Perm.Basic

/-!
# The sources of a project

What belongs to a project is gathered by steps that resolve, sort and filter in different places.
Here it is said once for the whole document: `Project.Gathers` tells which locations the items of a
document and the directory of the project contribute, and `Project.Selects` which of these are kept.
The sources of a project are known by the two (`Project.sources?_compiled`), and since neither looks
at the order in which directories are listed, the sources do not depend on it.
-/

namespace CommentScope

namespace Project

open Outcome

/-! ### What a document describes -/

/-- The parts of the specification that an element has under a name, if it is an item. -/
def partsUnder (name : String) (e : Xml.Element) : List String :=
  if e.name.base = itemName then (e.attribute? name).toList.flatMap partsOf else []

/-- What a part of a specification stands for: the locations of all that fits it, sorted, if it is a
pattern that finds nothing but paths, and one location otherwise. -/
inductive Expands (d : Disk) (directory : Path) (part : String) : List Location → Prop
  | pattern {pattern : Glob.Pattern} {found sorted : List Location}
      (isPattern : isPattern part = true) (read : Glob.Pattern.ofText? part = .ok pattern)
      (resolved : List.Forall₂ (fun f l ↦ ∃ p, f = .ok p ∧ d.resolve? p = .ok l)
        (pattern.select d directory) found)
      (perm : sorted.Perm found) (ordered : sorted.Pairwise (· ≤ ·)) :
      Expands d directory part sorted
  | path {l : Location} (isPath : isPattern part = false)
      (resolved : d.resolve? (directory.join (.ofText part)) = .ok l) :
      Expands d directory part [l]

/-- What the parts of specifications stand for, one after the other. -/
inductive ExpandsAll (d : Disk) (directory : Path) : List String → List Location → Prop
  | nil : ExpandsAll d directory [] []
  | cons {part : String} {parts : List String} {ls ms : List Location}
      (first : Expands d directory part ls) (rest : ExpandsAll d directory parts ms) :
      ExpandsAll d directory (part :: parts) (ls ++ ms)

/-- Whether a source is on a way from the directory of a project: what stands there is neither a
directory nor a link to one, its name is that of a source, and no directory on the way is one for
output. -/
def HasSource (d : Disk) (directory : Path) (way : Location) : Prop :=
  ∃ es, d.entries? directory.text = some es ∧ d.Lists enters directory es way ∧
    isSourceName (way.getLastD "") = true

/-- The locations of the sources below the directory of a project, those of a directory before those
of the directories in it. -/
def GathersBelow (d : Disk) (directory : Path) (standard : List Location) : Prop :=
  ∃ ways : List Location, (∀ way, way ∈ ways ↔ HasSource d directory way) ∧
    ways.Pairwise (fun a b ↦ toLex (a.dropLast, a) < toLex (b.dropLast, b)) ∧
      List.Forall₂ (fun way l ↦ d.resolve? (directory.along way) = .ok l) ways standard

/-- What a document contributes to a project: the locations that its items name, resolved once more;
the sources below the directory if there is an SDK; and the locations that are removed. -/
structure Gathers (d : Disk) (directory : Path) (document : Xml.Document)
    (named standard removed : List Location) : Prop where
  named : ∃ once, ExpandsAll d directory (document.elements.flatMap (partsUnder "Include")) once ∧
    List.Forall₂ (fun l l' ↦ d.resolve? ⟨"/", l⟩ = .ok l') once named
  standard : if hasSdk document then GathersBelow d directory standard else standard = []
  removed : ExpandsAll d directory (document.elements.flatMap (partsUnder "Remove")) removed

/-- What is kept of the locations that are included: the names of sources that are not removed, each
where it comes first. -/
structure Selects (included removed sources : List Location) : Prop where
  mem_iff : ∀ l, l ∈ sources ↔
    l ∈ included ∧ l ∉ removed ∧ isSourceName (l.getLastD "") = true
  once : sources.Nodup
  ordered : sources.Pairwise fun a b ↦ included.idxOf a < included.idxOf b

/-! ### Specifications -/

variable {d d' : Disk} {directory : Path} {part : String} {parts : List String}
  {ls ms : List Location} {path : String}

theorem resolve?_eq_ok_iff {p : Path} {l : Location} :
    resolve? d p = .ok l ↔ d.resolve? p = .ok l := mapError_eq_ok_iff

/-- All that is found is resolved exactly if there is no fault among it. -/
theorem mapM_found_eq_ok_iff {fs : List Glob.Found} :
    (fs.mapM fun f ↦ f.mapError .disk >>= resolve? d) = .ok ls ↔
      List.Forall₂ (fun f l ↦ ∃ p, f = .ok p ∧ d.resolve? p = .ok l) fs ls := by
  simp only [mapM_eq_ok_iff, bind_eq_ok_iff, mapError_eq_ok_iff, resolve?_eq_ok_iff]

/-- Sorted locations are what sorting them gives. -/
theorem mergeSort_eq_of_ordered (hperm : ls.Perm ms) (hls : ls.Pairwise (· ≤ ·)) :
    ms.mergeSort Location.le = ls :=
  eq_of_perm_of_key (pairwise_mergeSort_of_key Location.le_iff ms) hls
    ((List.mergeSort_perm ms _).trans hperm.symm) fun _ _ _ _ h ↦ h

theorem expandPart?_eq_ok_iff : expandPart? d directory part = .ok ls ↔
    Expands d directory part ls := by
  rw [expandPart?]
  constructor
  · intro h
    split at h
    · rename_i hpattern
      obtain ⟨pattern, hread, h⟩ := bind_eq_ok_iff.1 h
      obtain ⟨found, hfound, h⟩ := bind_eq_ok_iff.1 h
      cases h
      exact .pattern hpattern (mapError_eq_ok_iff.1 hread) (mapM_found_eq_ok_iff.1 hfound)
        (List.mergeSort_perm _ _)
        (pairwise_mergeSort_of_key Location.le_iff found)
    · rename_i hpath
      obtain ⟨l, hl, h⟩ := bind_eq_ok_iff.1 h
      cases h
      exact .path (Bool.eq_false_iff.2 hpath) (resolve?_eq_ok_iff.1 hl)
  · intro h
    cases h with
    | pattern hpattern hread hresolved hperm hordered =>
      rw [if_pos hpattern]
      refine bind_eq_ok_iff.2 ⟨_, mapError_eq_ok_iff.2 hread, bind_eq_ok_iff.2
        ⟨_, mapM_found_eq_ok_iff.2 hresolved, congrArg Except.ok ?_⟩⟩
      exact mergeSort_eq_of_ordered hperm hordered
    | path hpath hresolved =>
      rw [if_neg (Bool.eq_false_iff.1 hpath)]
      exact bind_eq_ok_iff.2 ⟨_, resolve?_eq_ok_iff.2 hresolved, rfl⟩

theorem expandsAll_append_iff {more : List String} : ExpandsAll d directory (parts ++ more) ls ↔
    ∃ ks ms, ExpandsAll d directory parts ks ∧ ExpandsAll d directory more ms ∧ ls = ks ++ ms := by
  induction parts generalizing ls with
  | nil =>
    constructor
    · exact fun h ↦ ⟨[], ls, .nil, h, rfl⟩
    · rintro ⟨_, ms, ⟨⟩, hms, rfl⟩
      exact hms
  | cons part parts ih =>
    constructor
    · rintro (_ | ⟨hfirst, hrest⟩)
      obtain ⟨ks, ms, hks, hms, rfl⟩ := ih.1 hrest
      exact ⟨_, ms, .cons hfirst hks, hms, (List.append_assoc _ ks ms).symm⟩
    · rintro ⟨_, ms, (_ | ⟨hfirst, hks⟩), hms, rfl⟩
      rw [List.append_assoc]
      exact .cons hfirst (ih.2 ⟨_, ms, hks, hms, rfl⟩)

theorem expand?_eq_ok_iff {specification : String} :
    expand? d directory specification = .ok ls ↔
      ExpandsAll d directory (partsOf specification) ls := by
  rw [expand?]
  generalize partsOf specification = parts
  induction parts generalizing ls with
  | nil =>
    constructor
    · intro h
      cases h
      exact .nil
    · rintro ⟨⟩
      rfl
  | cons part parts ih =>
    constructor
    · intro h
      obtain ⟨_, hmap, h⟩ := bind_eq_ok_iff.1 h
      obtain ⟨ks, kss, hks, hkss, rfl⟩ := mapM_cons_eq_ok_iff.1 hmap
      cases h
      exact .cons (expandPart?_eq_ok_iff.1 hks) (ih.1 (bind_eq_ok_iff.2 ⟨kss, hkss, rfl⟩))
    · rintro (_ | ⟨hfirst, hrest⟩)
      obtain ⟨kss, hkss, h⟩ := bind_eq_ok_iff.1 (ih.2 hrest)
      cases h
      exact bind_eq_ok_iff.2 ⟨_, mapM_cons_eq_ok_iff.2
        ⟨_, kss, expandPart?_eq_ok_iff.2 hfirst, hkss, rfl⟩, rfl⟩

/-! ### Items -/

theorem specified?_eq_ok_iff {e : Xml.Element} {name : String} :
    specified? d directory e name = .ok ls ↔
      ExpandsAll d directory ((e.attribute? name).toList.flatMap partsOf) ls := by
  rw [specified?]
  cases e.attribute? name with
  | none =>
    constructor
    · intro h
      cases h
      exact .nil
    · rintro ⟨⟩
      rfl
  | some specification =>
    rw [expand?_eq_ok_iff, Option.toList_some, List.flatMap_singleton]

theorem items?_eq_ok_iff {e : Xml.Element} : items? d directory e = .ok (ls, ms) ↔
    ExpandsAll d directory (partsUnder "Include" e) ls ∧
      ExpandsAll d directory (partsUnder "Remove" e) ms := by
  rw [items?, partsUnder, partsUnder]
  split
  · rw [← specified?_eq_ok_iff, ← specified?_eq_ok_iff]
    constructor
    · intro h
      obtain ⟨included, hincluded, h⟩ := bind_eq_ok_iff.1 h
      obtain ⟨removed, hremoved, h⟩ := bind_eq_ok_iff.1 h
      cases h
      exact ⟨hincluded, hremoved⟩
    · rintro ⟨hincluded, hremoved⟩
      exact bind_eq_ok_iff.2 ⟨ls, hincluded, bind_eq_ok_iff.2 ⟨ms, hremoved, rfl⟩⟩
  · constructor
    · intro h
      cases h
      exact ⟨.nil, .nil⟩
    · rintro ⟨⟨⟩, ⟨⟩⟩
      rfl

/-- **What the items of a document name** is what the parts of their specifications stand for. -/
theorem exists_mapM_items?_iff {elements : List Xml.Element} :
    (∃ items, elements.mapM (items? d directory) = .ok items ∧
      (items.map Prod.fst).flatten = ls ∧ (items.map Prod.snd).flatten = ms) ↔
    ExpandsAll d directory (elements.flatMap (partsUnder "Include")) ls ∧
      ExpandsAll d directory (elements.flatMap (partsUnder "Remove")) ms := by
  induction elements generalizing ls ms with
  | nil =>
    constructor
    · rintro ⟨_, ⟨⟩, rfl, rfl⟩
      exact ⟨.nil, .nil⟩
    · rintro ⟨⟨⟩, ⟨⟩⟩
      exact ⟨[], rfl, rfl, rfl⟩
  | cons e elements ih =>
    rw [List.flatMap_cons, List.flatMap_cons, expandsAll_append_iff, expandsAll_append_iff]
    constructor
    · rintro ⟨_, hitems, rfl, rfl⟩
      obtain ⟨⟨included, removed⟩, items, he, hrest, rfl⟩ := mapM_cons_eq_ok_iff.1 hitems
      obtain ⟨hincluded, hremoved⟩ := items?_eq_ok_iff.1 he
      obtain ⟨hmore, hgone⟩ := ih.1 ⟨items, hrest, rfl, rfl⟩
      exact ⟨⟨included, _, hincluded, hmore, rfl⟩, removed, _, hremoved, hgone, rfl⟩
    · rintro ⟨⟨included, more, hincluded, hmore, rfl⟩, removed, gone, hremoved, hgone, rfl⟩
      obtain ⟨items, hitems, rfl, rfl⟩ := ih.2 ⟨hmore, hgone⟩
      exact ⟨(included, removed) :: items, mapM_cons_eq_ok_iff.2
        ⟨_, items, items?_eq_ok_iff.2 ⟨hincluded, hremoved⟩, hitems, rfl⟩, rfl, rfl⟩

/-! ### Sources below the directory -/

/-- The ways to the sources below a directory, in order. -/
def standardWays (d : Disk) (directory : Path) : List Location :=
  ((d.filesBelow enters directory).filter fun way ↦ isSourceName (way.getLastD "")).mergeSort
    Disk.filesFirst

/-- Sources are the files below that have such a name. -/
theorem hasSource_iff (hsound : d.root.Sound) {way : Location} : HasSource d directory way ↔
    way ∈ (d.filesBelow enters directory).filter fun way ↦ isSourceName (way.getLastD "") := by
  rw [List.mem_filter]
  cases hdir : d.entries? directory.text with
  | none => simp [HasSource, Disk.filesBelow, Disk.waysBelow, hdir]
  | some es => simp [HasSource, Disk.mem_filesBelow_iff hsound hdir, hdir]

theorem mem_standardWays_iff (hsound : d.root.Sound) {way : Location} :
    way ∈ standardWays d directory ↔ HasSource d directory way := by
  rw [standardWays, List.mem_mergeSort, hasSource_iff hsound]

/-- The ways are in order, and no way is there twice. -/
theorem pairwise_standardWays (hsound : d.root.Sound) : (standardWays d directory).Pairwise
    fun a b ↦ toLex (a.dropLast, a) < toLex (b.dropLast, b) := by
  have hnodup : (standardWays d directory).Nodup :=
    (List.mergeSort_perm _ _).nodup_iff.2 ((Disk.nodup_filesBelow hsound).filter _)
  have hsorted : (standardWays d directory).Pairwise
      fun a b ↦ toLex (a.dropLast, a) ≤ toLex (b.dropLast, b) :=
    pairwise_mergeSort_of_key Disk.filesFirst_iff _
  refine (hsorted.and hnodup).imp ?_
  rintro a b ⟨hle, hne⟩
  exact lt_of_le_of_ne hle fun heq ↦ hne (congrArg (fun x ↦ (ofLex x).2) heq)

theorem standardItems?_eq_ok_iff (hsound : d.root.Sound) :
    standardItems? d directory = .ok ls ↔ GathersBelow d directory ls := by
  have hitems : standardItems? d directory =
      (standardWays d directory).mapM fun way ↦ resolve? d (directory.along way) := rfl
  rw [hitems, mapM_eq_ok_iff]
  simp only [resolve?_eq_ok_iff]
  constructor
  · exact fun h ↦ ⟨standardWays d directory, fun way ↦ mem_standardWays_iff hsound,
      pairwise_standardWays hsound, h⟩
  · rintro ⟨ways, hmem, hordered, h⟩
    have hways : ways = standardWays d directory :=
      eq_of_mem_iff_of_key hordered (pairwise_standardWays hsound) fun way ↦ by
        rw [hmem, mem_standardWays_iff hsound]
    rwa [← hways]

/-! ### What is kept -/

theorem distinct_concat (ls : List Location) (l : Location) :
    distinct (ls ++ [l]) = if l ∈ distinct ls then distinct ls else distinct ls ++ [l] := by
  rw [distinct, List.foldl_append]
  change (if (distinct ls).contains l then distinct ls else distinct ls ++ [l]) = _
  simp only [List.contains_iff_mem]

theorem mem_distinct {l : Location} : l ∈ distinct ls ↔ l ∈ ls := by
  induction ls using List.reverseRecOn with
  | nil => exact Iff.rfl
  | append_singleton ls l' ih =>
    rw [distinct_concat, List.mem_append, ← ih, List.mem_singleton]
    split
    · rename_i hmem
      exact ⟨.inl, fun h ↦ h.elim id fun heq ↦ heq ▸ hmem⟩
    · rw [List.mem_append, List.mem_singleton]

/-- What is kept of a list comes in the order of first appearance. -/
theorem pairwise_distinct_filter (p : Location → Bool) (ls : List Location) :
    (distinct (ls.filter p)).Pairwise fun a b ↦ ls.idxOf a < ls.idxOf b := by
  induction ls using List.reverseRecOn with
  | nil => exact .nil
  | append_singleton ls l ih =>
    have hmem : ∀ a ∈ distinct (ls.filter p), a ∈ ls :=
      fun a ha ↦ (List.mem_filter.1 (mem_distinct.1 ha)).1
    have hlonger : (distinct (ls.filter p)).Pairwise
        fun a b ↦ (ls ++ [l]).idxOf a < (ls ++ [l]).idxOf b := by
      refine ih.imp_of_mem fun ha hb hlt ↦ ?_
      rwa [List.idxOf_append_of_mem (hmem _ ha), List.idxOf_append_of_mem (hmem _ hb)]
    rw [List.filter_append]
    by_cases hl : p l = true
    · rw [List.filter_singleton, hl, cond_true, distinct_concat]
      split
      · exact hlonger
      · rename_i hnew
        have hnot : l ∉ ls := fun h ↦ hnew (mem_distinct.2 (List.mem_filter.2 ⟨h, hl⟩))
        refine List.pairwise_append.2 ⟨hlonger, List.pairwise_singleton _ l, fun a ha b hb ↦ ?_⟩
        cases List.mem_singleton.1 hb
        rw [List.idxOf_append_of_mem (hmem a ha), List.idxOf_append_of_notMem hnot]
        exact Nat.lt_of_lt_of_le (List.idxOf_lt_length_of_mem (hmem a ha)) (Nat.le_add_right _ _)
    · rw [List.filter_singleton, Bool.eq_false_iff.2 hl, cond_false, List.append_nil]
      exact hlonger

theorem selects_distinct (included removed : List Location) :
    Selects included removed (distinct (included.filter fun l ↦
      !removed.contains l && isSourceName (l.getLastD ""))) where
  mem_iff l := by
    rw [mem_distinct, List.mem_filter, Bool.and_eq_true, Bool.not_eq_true', ← Bool.not_eq_true,
      List.contains_iff_mem]
  once := (pairwise_distinct_filter _ included).imp fun hlt ↦
    ne_of_apply_ne included.idxOf (Nat.ne_of_lt hlt)
  ordered := pairwise_distinct_filter _ included

/-- Only one list is kept. -/
theorem Selects.eq {included removed : List Location} (h : Selects included removed ls)
    (h' : Selects included removed ms) : ls = ms :=
  eq_of_mem_iff_of_key h.ordered h'.ordered fun l ↦ by rw [h.mem_iff, h'.mem_iff]

/-! ### The sources of a document -/

/-- The steps in which the sources are gathered. -/
theorem sourcesOf?_eq (document : Xml.Document) : sourcesOf? d directory document = (do
    let items ← document.elements.mapM (items? d directory)
    let named ← (items.map Prod.fst).flatten.mapM fun l ↦ resolve? d ⟨"/", l⟩
    (if hasSdk document then standardItems? d directory else pure []) >>= fun standard ↦
      pure (distinct ((named ++ standard).filter fun l ↦
        !(items.map Prod.snd).flatten.contains l && isSourceName (l.getLastD "")))) := by
  rw [sourcesOf?]
  cases hasSdk document <;> rfl

/-- **The sources of the project that a document describes** are selected from what it gathers. -/
theorem sourcesOf?_eq_ok_iff (hsound : d.root.Sound) {document : Xml.Document} :
    sourcesOf? d directory document = .ok ls ↔ ∃ named standard removed,
      Gathers d directory document named standard removed ∧
        Selects (named ++ standard) removed ls := by
  have hstandard {standard : List Location} :
      (if hasSdk document then standardItems? d directory else pure []) = .ok standard ↔
        if hasSdk document then GathersBelow d directory standard else standard = [] := by
    split
    · exact standardItems?_eq_ok_iff hsound
    · exact ⟨fun h ↦ (Except.ok.inj h).symm, fun h ↦ congrArg Except.ok h.symm⟩
  have hnamed {once named : List Location} :
      (once.mapM fun l ↦ resolve? d ⟨"/", l⟩) = .ok named ↔
        List.Forall₂ (fun l l' ↦ d.resolve? ⟨"/", l⟩ = .ok l') once named := by
    simp only [mapM_eq_ok_iff, resolve?_eq_ok_iff]
  rw [sourcesOf?_eq]
  constructor
  · intro h
    obtain ⟨items, hitems, h⟩ := bind_eq_ok_iff.1 h
    obtain ⟨named, hagain, h⟩ := bind_eq_ok_iff.1 h
    obtain ⟨standard, hbelow, h⟩ := bind_eq_ok_iff.1 h
    cases h
    obtain ⟨hincluded, hremoved⟩ := exists_mapM_items?_iff.1 ⟨items, hitems, rfl, rfl⟩
    exact ⟨named, standard, _, ⟨⟨_, hincluded, hnamed.1 hagain⟩, hstandard.1 hbelow, hremoved⟩,
      selects_distinct _ _⟩
  · rintro ⟨named, standard, removed, ⟨⟨once, hincluded, hagain⟩, hbelow, hremoved⟩, hselects⟩
    obtain ⟨items, hitems, rfl, rfl⟩ := exists_mapM_items?_iff.2 ⟨hincluded, hremoved⟩
    refine bind_eq_ok_iff.2 ⟨items, hitems, bind_eq_ok_iff.2 ⟨named, hnamed.2 hagain,
      bind_eq_ok_iff.2 ⟨standard, hstandard.2 hbelow, congrArg Except.ok ?_⟩⟩⟩
    exact (selects_distinct _ _).eq hselects

/-! ### The order of listing -/

theorem isFolder_eq (h : d.Reordered d') (p : Path) {thing thing' : FileTree}
    (halike : thing.Alike thing') : d'.isFolder p thing' = d.isFolder p thing := by
  cases halike with
  | file content => rfl
  | link target => exact h.isDirectory_eq p.text
  | dir entries => rfl

theorem HasSource.of_reordered (h : d.Reordered d') {way : Location}
    (hway : HasSource d directory way) : HasSource d' directory way := by
  obtain ⟨es, hdir, ⟨⟨thing, hat, hthing⟩, hentered⟩, hname⟩ := hway
  have hentries := h.rel_entries? directory.text
  rw [hdir] at hentries
  generalize hfs : d'.entries? directory.text = fs at hentries
  cases hentries with
  | some hentries =>
    have hthings := hentries.rel_at? way (Disk.sound_of_entries? h.sound hdir)
    rw [hat] at hthings
    generalize hat' : Entries.at? _ way = found at hthings
    cases hthings with
    | some halike =>
      exact ⟨_, hfs, ⟨⟨_, hat', (isFolder_eq h _ halike).trans hthing⟩, hentered⟩, hname⟩

theorem Expands.of_reordered (h : d.Reordered d') (hpart : Expands d directory part ls) :
    Expands d' directory part ls := by
  cases hpart with
  | @pattern pattern found sorted hpattern hread hresolved hperm hordered =>
    obtain ⟨found', hfound', hsame⟩ :=
      List.perm_comp_forall₂ (h.perm_select pattern directory).symm hresolved
    simp only [← h.resolve?_eq] at hfound'
    exact .pattern hpattern hread hfound' (hperm.trans hsame.symm) hordered
  | path hpath hresolved => exact .path hpath ((h.resolve?_eq _).trans hresolved)

theorem ExpandsAll.of_reordered (h : d.Reordered d') (hparts : ExpandsAll d directory parts ls) :
    ExpandsAll d' directory parts ls := by
  induction hparts with
  | nil => exact .nil
  | cons first _ ih => exact .cons (first.of_reordered h) ih

theorem GathersBelow.of_reordered (h : d.Reordered d') (hbelow : GathersBelow d directory ls) :
    GathersBelow d' directory ls := by
  obtain ⟨ways, hmem, hordered, hresolved⟩ := hbelow
  refine ⟨ways, fun way ↦ (hmem way).trans ⟨.of_reordered h, .of_reordered h.symm⟩, hordered, ?_⟩
  simpa only [h.resolve?_eq] using hresolved

/-- **What a document contributes does not depend on the order of listing.** -/
theorem Gathers.of_reordered (h : d.Reordered d') {document : Xml.Document}
    {named standard removed : List Location}
    (hgathers : Gathers d directory document named standard removed) :
    Gathers d' directory document named standard removed := by
  obtain ⟨⟨once, hincluded, hagain⟩, hbelow, hremoved⟩ := hgathers
  refine ⟨⟨once, hincluded.of_reordered h, ?_⟩, ?_, hremoved.of_reordered h⟩
  · simpa only [h.resolve?_eq] using hagain
  · split at hbelow
    · rename_i hsdk
      rw [if_pos hsdk]
      exact hbelow.of_reordered h
    · rename_i hsdk
      rwa [if_neg hsdk]

/-! ### The sources of a project -/

theorem document?_eq (h : d.Reordered d') : document? d' path = document? d path := by
  rw [document?, document?, h.read?_eq]

theorem sources?_eq_ok_iff (hsound : d.root.Sound) : sources? d path = .ok ls ↔
    ∃ document, document? d path = .ok document ∧ ∃ named standard removed,
      Gathers d (Path.ofText path).parent document named standard removed ∧
        Selects (named ++ standard) removed ls := by
  rw [sources?, bind_eq_ok_iff]
  simp only [sourcesOf?_eq_ok_iff hsound]

/-- **The sources of the project at a path** are those that are kept of what its document gathers.
They do not depend on the order in which directories are listed. -/
theorem sources?_compiled (hsound : d.root.Sound) :
    (∀ sources, sources? d path = .ok sources ↔
      ∃ document, document? d path = .ok document ∧ ∃ named standard removed,
        Gathers d (Path.ofText path).parent document named standard removed ∧
          Selects (named ++ standard) removed sources) ∧
    ∀ d', d.Reordered d' → ∀ sources,
      sources? d' path = .ok sources ↔ sources? d path = .ok sources := by
  refine ⟨fun sources ↦ sources?_eq_ok_iff hsound, fun d' h sources ↦ ?_⟩
  rw [sources?_eq_ok_iff hsound, sources?_eq_ok_iff (h.root.sound hsound), document?_eq h]
  constructor
  · rintro ⟨document, hread, named, standard, removed, hgathers, hselects⟩
    exact ⟨document, hread, named, standard, removed, hgathers.of_reordered h.symm, hselects⟩
  · rintro ⟨document, hread, named, standard, removed, hgathers, hselects⟩
    exact ⟨document, hread, named, standard, removed, hgathers.of_reordered h, hselects⟩

/-! ### Projects with links -/

section

variable {entries : Entries} {name target text : String} {document : Xml.Document}

/-- Relative paths of the disk begin at its root. -/
theorem entries?_here (entries : Entries) :
    (Disk.mk entries []).entries? (Path.mk "" []).text = some entries := by
  have hsteps : Disk.stepsOf (Path.mk "" []).text = ["."] := by decide +kernel
  have hstart : Disk.startOf [] (Path.mk "" []).text = [] := ite_self []
  have hfound : (Disk.mk entries []).find? (Path.mk "" []).text = .ok (.dir entries) := by
    refine Disk.find?_eq_ok_iff.2 ⟨by decide, by decide, [], ?_, rfl⟩
    rw [hsteps, hstart]
    exact .step rfl (.stay rfl) (.arrived _ _)
  rw [Disk.entries?, hfound]

/-- A link from the directory of a project to what is neither a directory nor a link is listed. -/
theorem isDirectory_along_link (hname : Disk.IsPlain name) (htarget : Disk.IsPlain target)
    (hlookup : entries.lookup name = some (.link target))
    (hlink : ∀ s, entries.lookup target ≠ some (.link s))
    (hdir : ∀ inner, entries.lookup target ≠ some (.dir inner)) :
    (Disk.mk entries []).isDirectory ((Path.mk "" []).along [name]).text = false := by
  have htext : ((Path.mk "" []).along [name]).text = name := by
    have hparts := hname.text_ofText
    rwa [hname.ofText_eq] at hparts
  rw [htext, Disk.isDirectory, Disk.entries?, hname.find?_link htarget hlookup hlink]
  cases hthing : entries.lookup target with
  | none => rfl
  | some thing =>
    cases thing with
    | file content => rfl
    | link s => exact absurd hthing (hlink s)
    | dir inner => exact absurd hthing (hdir inner)

/-- The document of a project in the root directory. -/
theorem document?_eq_ok (hname : Disk.IsPlain name)
    (hlookup : entries.lookup name = some (.file text.toUTF8))
    (hread : Xml.Document.read? text.toUTF8.toList = .ok document) :
    document? ⟨entries, []⟩ name = .ok document := by
  refine bind_eq_ok_iff.2 ⟨text.toUTF8, ?_, ?_⟩
  · rw [hname.text_ofText, Disk.read?, hname.find?_eq hlookup (fun _ h ↦ by cases h)]
    rfl
  · rw [hread]
    rfl

end

open Xml

/-- The root of a project with an SDK. -/
def sdkElement : Element := ⟨⟨none, "Project"⟩, [(⟨none, "Sdk"⟩, "x")]⟩

theorem element?_sdk : Content.element? (.empty false) .standard ⟨none, "Project"⟩
    [(⟨none, "Sdk"⟩, ['x'])] = some (sdkElement, .standard) := by
  rw [Content.element?, valuesOf?_plain _ (by decide) (by decide +kernel)]
  decide +kernel

/-- A project that has an SDK and no items. -/
def bareProject : String := "<Project Sdk=\"x\"/>"

theorem read?_bareProject :
    Document.read? bareProject.toUTF8.toList = .ok ⟨sdkElement, []⟩ := by
  have htext : Encoding.textOf? bareProject.toUTF8.toList =
      .ok (.standard, bareProject.toList) := by
    decide +kernel
  have hprolog : Document.prolog ((Text.Newline.unify bareProject.toList).length + 1)
      Declaration.standard.standsAlone (Text.Newline.unify bareProject.toList) =
        some (.empty false, bareProject.toList) := rfl
  have htokens : Content.tokensOf? bareProject.toList =
      some [.opening ⟨none, "Project"⟩ [(⟨none, "Sdk"⟩, ['x'])] true] := by
    decide +kernel
  exact Document.read?_of_content htext (by decide +kernel) hprolog htokens rfl
    (Content.elements_empty element?_sdk (by rw [Content.elements]; rfl))

/-- A disk with a project and a link to a source that is not there. -/
def dangling : Disk where
  root := [("p.csproj", .file bareProject.toUTF8), ("a.cs", .link "gone.cs")]
  here := []

theorem sound_dangling : dangling.root.Sound :=
  .intro (by decide) (by decide) (by simp [dangling])

theorem find?_dangling : dangling.find? "a.cs" = .error .notFound :=
  Disk.IsPlain.find?_link (by decide : Disk.IsPlain "a.cs") (by decide : Disk.IsPlain "gone.cs")
    rfl fun _ h ↦ by cases h

theorem hasSource_dangling_iff {way : Location} :
    HasSource dangling ⟨"", []⟩ way ↔ way ∈ [["a.cs"]] := by
  have hlink : dangling.isDirectory ((Path.mk "" []).along ["a.cs"]).text = false :=
    isDirectory_along_link (by decide) (by decide : Disk.IsPlain "gone.cs") rfl
      (fun _ h ↦ by cases h) fun _ h ↦ by cases h
  have hdir : dangling.entries? (Path.mk "" []).text = some dangling.root := entries?_here _
  have hfiles : dangling.filesBelow enters ⟨"", []⟩ = [["p.csproj"], ["a.cs"]] := by
    rw [Disk.filesBelow, hdir, Option.getD_some]
    simpa [dangling, Disk.waysBelow, Disk.waysOfEntry, Disk.waysOf] using hlink
  have hsources : ([["p.csproj"], ["a.cs"]] : List Location).filter
      (fun way ↦ isSourceName (way.getLastD "")) = [["a.cs"]] := by
    decide +kernel
  rw [hasSource_iff sound_dangling, hfiles, hsources]

/-- Whether a source on a way from the directory of a project is a file or a link to one. -/
def HoldsFile (d : Disk) (directory : Path) (way : Location) : Prop :=
  isSourceName (way.getLastD "") = true ∧
    (∃ es thing, d.entries? directory.text = some es ∧ es.at? way = some thing) ∧
      ∃ content, d.find? (directory.along way).text = .ok (.file content)

/-- **A link is compiled also if it leads to nothing.** No source on this disk is a file or a link
to one, and no item names a source, but the project has one. -/
theorem sources?_keep_dangling :
    (∀ way, ¬HoldsFile dangling ⟨"", []⟩ way) ∧
      document? dangling "p.csproj" = .ok ⟨sdkElement, []⟩ ∧
        sources? dangling "p.csproj" = .ok [["gone.cs"]] := by
  have hdocument : document? dangling "p.csproj" = .ok ⟨sdkElement, []⟩ :=
    document?_eq_ok (by decide) rfl read?_bareProject
  refine ⟨?_, hdocument, ?_⟩
  · rintro way ⟨hname, ⟨es, thing, hdir, hat⟩, content, hfound⟩
    have hroot : dangling.entries? (Path.mk "" []).text = some dangling.root := entries?_here _
    cases hroot.symm.trans hdir
    cases way with
    | nil => exact absurd hname (by decide +kernel)
    | cons first rest =>
      rcases Entries.at?_cons_eq_some_iff.1 hat with ⟨inner, hfirst, -⟩ | ⟨rfl, hfirst⟩
      · have hmem := sound_dangling.lookup_eq_iff.1 hfirst
        simp [dangling] at hmem
      · have hmem := sound_dangling.lookup_eq_iff.1 hfirst
        simp only [dangling, List.mem_cons, Prod.mk.injEq, List.not_mem_nil, or_false] at hmem
        rcases hmem with ⟨rfl, -⟩ | ⟨rfl, -⟩
        · exact absurd hname (by decide +kernel)
        · have htext : ((Path.mk "" []).along ["a.cs"]).text = "a.cs" := by decide +kernel
          rw [htext, find?_dangling] at hfound
          cases hfound
  · have hparent : (Path.ofText "p.csproj").parent = ⟨"", []⟩ := by decide +kernel
    have hresolved : dangling.resolve? ((Path.mk "" []).along ["a.cs"]) = .ok ["gone.cs"] :=
      Disk.IsPlain.resolve?_link (by decide : Disk.IsPlain "a.cs")
        (by decide : Disk.IsPlain "gone.cs") rfl (fun s hs ↦ by cases hs) ""
    have hsdk : hasSdk ⟨sdkElement, []⟩ = true := by decide +kernel
    have hselects := selects_distinct [["gone.cs"]] []
    rw [show distinct _ = [["gone.cs"]] by decide +kernel] at hselects
    refine (sources?_eq_ok_iff sound_dangling).2 ⟨_, hdocument, [], [["gone.cs"]], [], ?_, hselects⟩
    rw [hparent]
    refine ⟨⟨[], .nil, .nil⟩, ?_, .nil⟩
    rw [if_pos hsdk]
    exact ⟨[["a.cs"]], fun way ↦ hasSource_dangling_iff.symm, List.pairwise_singleton _ _,
      .cons hresolved .nil⟩

/-- A project that includes one source twice and removes another. -/
def crossedProject : String :=
  "<Project Sdk=\"x\"><Compile Include=\"./b.cs;a.cs\" Remove=\"c.cs\"/></Project>"

/-- The item of this project. -/
def crossedItem : Element :=
  ⟨⟨none, "Compile"⟩, [(⟨none, "Include"⟩, "./b.cs;a.cs"), (⟨none, "Remove"⟩, "c.cs")]⟩

theorem read?_crossedProject :
    Document.read? crossedProject.toUTF8.toList = .ok ⟨sdkElement, [crossedItem]⟩ := by
  have htext : Encoding.textOf? crossedProject.toUTF8.toList =
      .ok (.standard, crossedProject.toList) := by
    decide +kernel
  have hprolog : Document.prolog ((Text.Newline.unify crossedProject.toList).length + 1)
      Declaration.standard.standsAlone (Text.Newline.unify crossedProject.toList) =
        some (.empty false, crossedProject.toList) := rfl
  have htokens : Content.tokensOf? crossedProject.toList =
      some [.opening ⟨none, "Project"⟩ [(⟨none, "Sdk"⟩, ['x'])] false,
        .opening ⟨none, "Compile"⟩ [(⟨none, "Include"⟩, "./b.cs;a.cs".toList),
          (⟨none, "Remove"⟩, "c.cs".toList)] true, .closing "Project"] := by
    decide +kernel
  have hitem : Content.element? (.empty false) .standard ⟨none, "Compile"⟩
      [(⟨none, "Include"⟩, "./b.cs;a.cs".toList), (⟨none, "Remove"⟩, "c.cs".toList)] =
        some (crossedItem, .standard) := by
    rw [Content.element?, valuesOf?_plain _ (by decide) (by decide +kernel)]
    decide +kernel
  refine Document.read?_of_content htext (by decide +kernel) hprolog htokens rfl
    (Content.elements_opening element?_sdk (Content.elements_empty hitem ?_))
  rw [show Content.written ⟨none, "Project"⟩ = "Project" by decide +kernel]
  exact Content.elements_closing

/-- A directory with this project, with a link to one of its sources and a link to nothing. -/
def crossedEntries : Entries :=
  [("p.csproj", .file crossedProject.toUTF8), ("z.cs", .link "gone.cs"),
    ("c.cs", .file "c".toUTF8), ("b.cs", .file "b".toUTF8), ("a.cs", .link "b.cs")]

/-- The disk that has these entries. -/
def crossed : Disk := ⟨crossedEntries, []⟩

theorem sound_crossed : crossed.root.Sound :=
  .intro (by decide) (by decide) (by simp [crossed, crossedEntries])

theorem hasSource_crossed_iff {way : Location} :
    HasSource crossed ⟨"", []⟩ way ↔ way ∈ [["a.cs"], ["b.cs"], ["c.cs"], ["z.cs"]] := by
  have hdir : crossed.entries? (Path.mk "" []).text = some crossed.root := entries?_here _
  have hfirst : crossed.isDirectory ((Path.mk "" []).along ["a.cs"]).text = false :=
    isDirectory_along_link (by decide) (by decide : Disk.IsPlain "b.cs") rfl
      (fun _ h ↦ by cases h) fun _ h ↦ by cases h
  have hlast : crossed.isDirectory ((Path.mk "" []).along ["z.cs"]).text = false :=
    isDirectory_along_link (by decide) (by decide : Disk.IsPlain "gone.cs") rfl
      (fun _ h ↦ by cases h) fun _ h ↦ by cases h
  have hfiles : crossed.filesBelow enters ⟨"", []⟩ =
      [["p.csproj"], ["z.cs"], ["c.cs"], ["b.cs"], ["a.cs"]] := by
    rw [Disk.filesBelow, hdir, Option.getD_some]
    rw [show crossed.root = crossedEntries from rfl, crossedEntries]
    simp [Disk.waysBelow, Disk.waysOfEntry, Disk.waysOf, hfirst, hlast]
  have hsources : ([["p.csproj"], ["z.cs"], ["c.cs"], ["b.cs"], ["a.cs"]] : List Location).filter
      (fun way ↦ isSourceName (way.getLastD "")) = [["z.cs"], ["c.cs"], ["b.cs"], ["a.cs"]] := by
    decide +kernel
  have hsame := (List.reverse_perm [["a.cs"], ["b.cs"], ["c.cs"], ["z.cs"]]).mem_iff (a := way)
  rw [hasSource_iff sound_crossed, hfiles, hsources]
  exact hsame

/-- The source that is included twice is there once, the one that is removed is not, and the link to
nothing is. -/
theorem sources?_compiled_crossed :
    crossed.root.Sound ∧ sources? crossed "p.csproj" = .ok [["b.cs"], ["gone.cs"]] := by
  have hdocument : document? crossed "p.csproj" = .ok ⟨sdkElement, [crossedItem]⟩ :=
    document?_eq_ok (by decide) rfl read?_crossedProject
  have hparent : (Path.ofText "p.csproj").parent = ⟨"", []⟩ := by decide +kernel
  have hb (anchor : String) : crossed.resolve? ⟨anchor, ["b.cs"]⟩ = .ok ["b.cs"] :=
    Disk.IsPlain.resolve?_of_not_link (by decide) (fun s hs ↦ by cases hs) anchor
  have hc (anchor : String) : crossed.resolve? ⟨anchor, ["c.cs"]⟩ = .ok ["c.cs"] :=
    Disk.IsPlain.resolve?_of_not_link (by decide) (fun s hs ↦ by cases hs) anchor
  have ha (anchor : String) : crossed.resolve? ⟨anchor, ["a.cs"]⟩ = .ok ["b.cs"] :=
    Disk.IsPlain.resolve?_link (by decide) (by decide) rfl (fun s hs ↦ by cases hs) anchor
  have hz (anchor : String) : crossed.resolve? ⟨anchor, ["z.cs"]⟩ = .ok ["gone.cs"] :=
    Disk.IsPlain.resolve?_link (by decide) (by decide) rfl (fun s hs ↦ by cases hs) anchor
  have hsdk : hasSdk ⟨sdkElement, [crossedItem]⟩ = true := by decide +kernel
  have hinclude : (Document.elements ⟨sdkElement, [crossedItem]⟩).flatMap (partsUnder "Include") =
      ["./b.cs", "a.cs"] := by
    decide +kernel
  have hremove : (Document.elements ⟨sdkElement, [crossedItem]⟩).flatMap (partsUnder "Remove") =
      ["c.cs"] := by
    decide +kernel
  have hselects := selects_distinct
    [["b.cs"], ["b.cs"], ["b.cs"], ["b.cs"], ["c.cs"], ["gone.cs"]] [["c.cs"]]
  rw [show distinct _ = [["b.cs"], ["gone.cs"]] by decide +kernel] at hselects
  refine ⟨sound_crossed, ((sources?_compiled sound_crossed).1 _).2 ⟨_, hdocument,
    [["b.cs"], ["b.cs"]], [["b.cs"], ["b.cs"], ["c.cs"], ["gone.cs"]], [["c.cs"]], ?_, hselects⟩⟩
  rw [hparent]
  have hpath : (Path.mk "" []).join (.ofText "./b.cs") = ⟨"", ["b.cs"]⟩ := by decide +kernel
  have hpath' : (Path.mk "" []).join (.ofText "a.cs") = ⟨"", ["a.cs"]⟩ := by decide +kernel
  have hpath'' : (Path.mk "" []).join (.ofText "c.cs") = ⟨"", ["c.cs"]⟩ := by decide +kernel
  refine ⟨⟨[["b.cs"], ["b.cs"]], ?_, .cons (hb "/") (.cons (hb "/") .nil)⟩, ?_, ?_⟩
  · rw [hinclude]
    exact .cons (.path (by decide +kernel) (by rw [hpath, hb]))
      (.cons (.path (by decide +kernel) (by rw [hpath', ha])) .nil)
  · rw [if_pos hsdk]
    exact ⟨[["a.cs"], ["b.cs"], ["c.cs"], ["z.cs"]], fun way ↦ hasSource_crossed_iff.symm,
      by decide +kernel, .cons (ha "") (.cons (hb "") (.cons (hc "") (.cons (hz "") .nil)))⟩
  · rw [hremove]
    exact .cons (.path (by decide +kernel) (by rw [hpath'', hc])) .nil

end Project

end CommentScope
