import CommentScope.Glob.Select
import CommentScope.Disk.Walk
import CommentScope.Proofs.DiskPaths
import CommentScope.Proofs.Outcome
import Mathlib.Data.List.Perm.Basic

/-!
# Directories listed in another order

A disk lists the entries of each directory in some order. `Entries.Reordered` relates directories
that differ in nothing but this order, at any depth. If the names in each directory are distinct
(`Entries.Sound`), then all that is asked by name has the same answer on such disks: what a path
leads to (`Disk.Reordered.alike_find?`) and where it really is (`Disk.Reordered.resolve?_eq`). What
is listed is the same but for its order: the files below a directory
(`Disk.Reordered.perm_filesBelow`) and the paths that a pattern stands for
(`Disk.Reordered.perm_select`).
-/

namespace CommentScope

namespace Entries

/-- Whether a directory with these entries can be on a disk: no two of them have the same name, the
names are plain, and so it is in the directories below. -/
inductive Sound : Entries → Prop
  | intro {entries : Entries} (distinct : (entries.map Prod.fst).Nodup)
      (plain : ∀ e ∈ entries, Disk.IsPlain e.1)
      (inside : ∀ {name : String} {inner : Entries}, (name, .dir inner) ∈ entries → Sound inner) :
      Sound entries

/-- Two directories have the same entries but for the order in which these, and those of the
directories below, are listed. -/
inductive Reordered : Entries → Entries → Prop
  | nil : Reordered [] []
  | keep {es fs : Entries} (e : String × FileTree) (rest : Reordered es fs) :
      Reordered (e :: es) (e :: fs)
  | enter {inner inner' es fs : Entries} (name : String) (inside : Reordered inner inner')
      (rest : Reordered es fs) : Reordered ((name, .dir inner) :: es) ((name, .dir inner') :: fs)
  | swap (e f : String × FileTree) (es : Entries) : Reordered (e :: f :: es) (f :: e :: es)
  | trans {es fs gs : Entries} (first : Reordered es fs) (second : Reordered fs gs) :
      Reordered es gs

end Entries

/-- Two things are the same but for the order in which directories are listed. -/
inductive FileTree.Alike : FileTree → FileTree → Prop
  | file (content : ByteArray) : Alike (.file content) (.file content)
  | link (target : String) : Alike (.link target) (.link target)
  | dir {es fs : Entries} (entries : es.Reordered fs) : Alike (.dir es) (.dir fs)

namespace Entries

variable {es fs gs inner : Entries} {e : String × FileTree} {name : String} {place : Location}

/-! ### Sound directories -/

namespace Sound

theorem distinct (h : es.Sound) : (es.map Prod.fst).Nodup := by
  cases h with
  | intro distinct => exact distinct

theorem plain (h : es.Sound) : ∀ e ∈ es, Disk.IsPlain e.1 := by
  cases h with
  | intro _ plain => exact plain

theorem inside (h : es.Sound) (hmem : (name, .dir inner) ∈ es) : inner.Sound := by
  cases h with
  | intro _ _ inside => exact inside hmem

theorem tail (h : Sound (e :: es)) : es.Sound :=
  .intro (List.nodup_cons.1 h.distinct).2 (fun f hf ↦ h.plain f (List.mem_cons_of_mem e hf))
    fun hmem ↦ h.inside (List.mem_cons_of_mem e hmem)

/-- In a sound directory each entry is found by its name. -/
theorem lookup_eq_iff (h : es.Sound) {thing : FileTree} :
    es.lookup name = some thing ↔ (name, thing) ∈ es := by
  induction es with
  | nil => simp
  | cons e es ih =>
    obtain ⟨first, other⟩ := e
    have hnot : first ∉ es.map Prod.fst := (List.nodup_cons.1 h.distinct).1
    rw [List.lookup_cons, List.mem_cons]
    cases hname : name == first with
    | true =>
      have heq : name = first := by simpa using hname
      subst heq
      have habsent : (name, thing) ∉ es :=
        fun hmem ↦ hnot (List.mem_map_of_mem (f := Prod.fst) hmem)
      simp [habsent, eq_comm]
    | false =>
      have hne : name ≠ first := by simpa using hname
      simp [ih h.tail, hne]

/-- What is below a sound directory is sound. -/
theorem at? : ∀ {es : Entries} {place : Location}, es.Sound →
    es.at? place = some (.dir inner) → inner.Sound
  | es, [], h, hat => by
    cases hat
    exact h
  | es, [name], h, hat => h.inside (h.lookup_eq_iff.1 hat)
  | es, name :: next :: rest, h, hat => by
    rw [Entries.at?] at hat
    · split at hat
      · rename_i below hbelow
        exact at? (h.inside (h.lookup_eq_iff.1 hbelow)) hat
      · cases hat
    · exact List.cons_ne_nil next rest

end Sound

/-! ### Reordered directories -/

namespace Reordered

theorem refl (es : Entries) : es.Reordered es := by
  induction es with
  | nil => exact .nil
  | cons e es ih => exact .keep e ih

theorem symm (h : es.Reordered fs) : fs.Reordered es := by
  induction h with
  | nil => exact .nil
  | keep e _ ih => exact .keep e ih
  | enter name _ _ ihinside ih => exact .enter name ihinside ih
  | swap e f es => exact .swap f e es
  | trans _ _ ih₁ ih₂ => exact ih₂.trans ih₁

/-- The names are the same. -/
theorem names (h : es.Reordered fs) : (es.map Prod.fst).Perm (fs.map Prod.fst) := by
  induction h with
  | nil => exact .nil
  | keep e _ ih => exact ih.cons e.1
  | enter name _ _ _ ih => exact ih.cons name
  | swap e f es => exact .swap f.1 e.1 _
  | trans _ _ ih₁ ih₂ => exact ih₁.trans ih₂

theorem sound (h : es.Reordered fs) (hsound : es.Sound) : fs.Sound := by
  induction h with
  | nil => exact hsound
  | keep e rest ih =>
    have hrest := ih hsound.tail
    refine .intro ((rest.keep e).names.nodup hsound.distinct) ?_ fun hmem ↦ ?_
    · exact List.forall_mem_cons.2 ⟨hsound.plain e List.mem_cons_self, hrest.plain⟩
    · rcases List.mem_cons.1 hmem with rfl | hmem
      · exact hsound.inside List.mem_cons_self
      · exact hrest.inside hmem
  | enter name inside rest ihinside ih =>
    have hrest := ih hsound.tail
    have hinside := ihinside (hsound.inside List.mem_cons_self)
    refine .intro ((inside.enter name rest).names.nodup hsound.distinct) ?_ fun hmem ↦ ?_
    · have hname : Disk.IsPlain name := hsound.plain _ List.mem_cons_self
      exact List.forall_mem_cons.2 ⟨hname, hrest.plain⟩
    · rcases List.mem_cons.1 hmem with heq | hmem
      · cases heq
        exact hinside
      · exact hrest.inside hmem
  | swap e f es =>
    have hmem : ∀ x, x ∈ f :: e :: es → x ∈ e :: f :: es :=
      fun x hx ↦ (List.Perm.swap e f es).mem_iff.1 hx
    exact .intro ((swap e f es).names.nodup hsound.distinct) (fun x hx ↦ hsound.plain x (hmem x hx))
      fun hx ↦ hsound.inside (hmem _ hx)
  | trans _ _ ih₁ ih₂ => exact ih₂ (ih₁ hsound)

end Reordered

end Entries

/-! ### Things that are alike -/

namespace FileTree.Alike

variable {s t u : FileTree}

theorem refl (t : FileTree) : t.Alike t := by
  cases t with
  | file content => exact .file content
  | link target => exact .link target
  | dir entries => exact .dir (.refl entries)

theorem trans (h : s.Alike t) (h' : t.Alike u) : s.Alike u := by
  cases h with
  | file | link => exact h'
  | dir first =>
    cases h' with
    | dir second => exact .dir (first.trans second)

theorem rel_refl (t : Option FileTree) : Option.Rel Alike t t := by
  cases t with
  | none => exact .none
  | some t => exact .some (refl t)

theorem rel_trans {s t u : Option FileTree} (h : Option.Rel Alike s t) (h' : Option.Rel Alike t u) :
    Option.Rel Alike s u := by
  cases h with
  | none => exact h'
  | some h =>
    cases h' with
    | some h' => exact .some (h.trans h')

section

variable {s t : Option FileTree} {thing : FileTree} {target : String}

theorem eq_none (h : Option.Rel Alike s t) (hs : s = none) : t = none := by
  subst hs
  cases h
  rfl

theorem eq_link (h : Option.Rel Alike s t) (hs : s = some (.link target)) :
    t = some (.link target) := by
  subst hs
  cases h with
  | some h =>
    cases h
    rfl

/-- What is no link is none on the other side. -/
theorem exists_not_link (h : Option.Rel Alike s t) (hs : s = some thing)
    (hlink : ∀ target, thing ≠ .link target) :
    ∃ thing', t = some thing' ∧ ∀ target, thing' ≠ .link target := by
  subst hs
  cases h with
  | some h =>
    cases h with
    | file content => exact ⟨_, rfl, nofun⟩
    | link target => exact absurd rfl (hlink target)
    | dir entries => exact ⟨_, rfl, nofun⟩

theorem exists_dir {es : Entries} (h : Option.Rel Alike s t) (hs : s = some (.dir es)) :
    ∃ fs, t = some (.dir fs) ∧ es.Reordered fs := by
  subst hs
  cases h with
  | some h =>
    cases h with
    | dir entries => exact ⟨_, rfl, entries⟩

/-- What is no directory is the same on the other side. -/
theorem eq_of_not_dir (h : Option.Rel Alike s t) (hs : s = some thing)
    (hdir : ∀ entries, thing ≠ .dir entries) : t = some thing := by
  subst hs
  cases h with
  | some h =>
    cases h with
    | file | link => rfl
    | dir => exact absurd rfl (hdir _)

end

end FileTree.Alike

namespace Entries.Reordered

variable {es fs : Entries}

/-- **What a name stands for does not depend on the order of the entries.** -/
theorem rel_lookup (h : es.Reordered fs) (hsound : es.Sound) (name : String) :
    Option.Rel FileTree.Alike (es.lookup name) (fs.lookup name) := by
  induction h with
  | nil => exact .none
  | keep e rest ih =>
    rw [List.lookup_cons, List.lookup_cons]
    split
    · exact .some (.refl e.2)
    · exact ih hsound.tail
  | enter first inside rest _ ih =>
    rw [List.lookup_cons, List.lookup_cons]
    split
    · exact .some (.dir inside)
    · exact ih hsound.tail
  | swap e f es =>
    have hne : e.1 ≠ f.1 := by
      have hnot := (List.nodup_cons.1 hsound.distinct).1
      exact fun heq ↦ hnot (heq ▸ List.mem_cons_self)
    have hsame : List.lookup name (f :: e :: es) = List.lookup name (e :: f :: es) := by
      rw [List.lookup_cons, List.lookup_cons, List.lookup_cons, List.lookup_cons]
      by_cases he : name = e.1
      · have hf : (name == f.1) = false := by simpa [he] using hne
        rw [hf]
      · have he' : (name == e.1) = false := by simpa using he
        rw [he']
    rw [hsame]
    exact FileTree.Alike.rel_refl _
  | trans first _ ih₁ ih₂ => exact FileTree.Alike.rel_trans (ih₁ hsound) (ih₂ (first.sound hsound))

/-- What is at a place does not depend on the order of the entries. -/
theorem rel_at? : ∀ {es fs : Entries}, es.Reordered fs → ∀ (place : Location), es.Sound →
    Option.Rel FileTree.Alike (es.at? place) (fs.at? place)
  | es, fs, h, [], _ => .some (.dir h)
  | es, fs, h, [name], hsound => h.rel_lookup hsound name
  | es, fs, h, name :: next :: rest, hsound => by
    have hname := h.rel_lookup hsound name
    have hinside : ∀ inner : Entries, es.lookup name = some (.dir inner) → inner.Sound :=
      fun inner hlookup ↦ hsound.inside (hsound.lookup_eq_iff.1 hlookup)
    rw [at?, at?]
    · generalize es.lookup name = thing, fs.lookup name = thing' at hname hinside ⊢
      cases hname with
      | none => exact .none
      | some hthing =>
        cases hthing with
        | file | link => exact .none
        | dir hinner => exact hinner.rel_at? (next :: rest) (hinside _ rfl)
    · exact List.cons_ne_nil next rest
    · exact List.cons_ne_nil next rest

end Entries.Reordered

/-! ### What is listed below a directory -/

namespace Glob

variable {found found' : List Found}

theorem perm_ifSo (h : found.Perm found') (answer : Except DiskFault Bool) :
    (ifSo answer found).Perm (ifSo answer found') := by
  cases answer with
  | error fault => exact .refl _
  | ok holds =>
    cases holds with
    | true => exact h
    | false => exact .nil

theorem perm_listing (h : found.Perm found') (p : Path) :
    (listing p found).Perm (listing p found') := by
  rw [listing, listing]
  split
  · exact .refl _
  · exact h

end Glob

namespace Entries.Reordered

variable {es fs : Entries}

/-- There are as many links below. -/
theorem linkCount_eq (h : es.Reordered fs) : Disk.linkCount fs = Disk.linkCount es := by
  induction h with
  | nil => rfl
  | keep e _ ih => rw [Disk.linkCount, Disk.linkCount, ih]
  | enter name _ _ ihinside ih =>
    simp only [Disk.linkCount, Disk.linksOfEntry, Disk.linksOf, ihinside, ih]
  | swap e f es =>
    simp only [Disk.linkCount]
    omega
  | trans _ _ ih₁ ih₂ => rw [ih₂, ih₁]

/-- The ways to the files below are the same but for their order. -/
theorem perm_waysBelow (h : es.Reordered fs) (d : Disk) (enters : String → Bool) (base : Path)
    (way : Location) :
    (d.waysBelow enters base way es).Perm (d.waysBelow enters base way fs) := by
  induction h generalizing way with
  | nil => exact .nil
  | keep e _ ih =>
    rw [Disk.waysBelow, Disk.waysBelow]
    exact (ih way).append_left _
  | enter name _ _ ihinside ih =>
    simp only [Disk.waysBelow, Disk.waysOfEntry, Disk.waysOf]
    refine .append ?_ (ih way)
    split
    · exact ihinside _
    · exact .nil
  | swap e f es =>
    simp only [Disk.waysBelow, ← List.append_assoc]
    exact List.perm_append_comm.append_right _
  | trans _ _ ih₁ ih₂ => exact (ih₁ way).trans (ih₂ way)

/-- What is listed for each entry is the same but for its order, if it is for things that are
alike. -/
theorem perm_flatMap {α : Type} {f f' : String × FileTree → List α} (h : es.Reordered fs)
    (hf : ∀ (name : String) {thing thing' : FileTree}, thing.Alike thing' →
      (f (name, thing)).Perm (f' (name, thing'))) :
    (es.flatMap f).Perm (fs.flatMap f') := by
  induction h with
  | nil => exact .nil
  | keep e _ ih => exact (hf e.1 (.refl e.2)).append ih
  | enter name inside _ _ ih => exact (hf name (.dir inside)).append ih
  | swap e f es => exact (List.Perm.swap f e es).flatMap fun e _ ↦ hf e.1 (.refl e.2)
  | @trans es gs fs _ _ ih₁ ih₂ =>
    have hback : (gs.flatMap f').Perm (gs.flatMap f) :=
      (List.Perm.refl gs).flatMap fun e _ ↦ (hf e.1 (.refl e.2)).symm
    exact (ih₁.trans hback).trans ih₂

/-- The directories below are the same but for their order. -/
theorem perm_directoriesBelow (h : es.Reordered fs) (p : Path) :
    (Glob.directoriesBelow p es).Perm (Glob.directoriesBelow p fs) := by
  induction h generalizing p with
  | nil => exact .nil
  | keep e _ ih =>
    rw [Glob.directoriesBelow, Glob.directoriesBelow]
    exact (ih p).append_left _
  | enter name _ _ ihinside ih =>
    simp only [Glob.directoriesBelow, Glob.directoriesOfEntry, Glob.directoriesOf]
    exact ((Glob.perm_listing (ihinside _) _).cons _).append (ih p)
  | swap e f es =>
    simp only [Glob.directoriesBelow, ← List.append_assoc]
    exact List.perm_append_comm.append_right _
  | trans _ _ ih₁ ih₂ => exact (ih₁ p).trans (ih₂ p)

end Entries.Reordered

/-! ### Disks -/

namespace Disk

/-- Two sound disks are the same but for the order in which directories are listed. -/
structure Reordered (d d' : Disk) : Prop where
  sound : d.root.Sound
  root : d.root.Reordered d'.root
  here : d.here = d'.here

namespace Reordered

variable {d d' : Disk}

theorem symm (h : d.Reordered d') : d'.Reordered d :=
  ⟨h.root.sound h.sound, h.root.symm, h.here.symm⟩

theorem rel_at? (h : d.Reordered d') (place : Location) :
    Option.Rel FileTree.Alike (d.at? place) (d'.at? place) :=
  h.root.rel_at? place h.sound

/-- A directory of one disk is one of the other, and its entries are the same. -/
theorem at?_dir (h : d.Reordered d') {place : Location} {es : Entries}
    (hdir : d.at? place = some (.dir es)) :
    ∃ fs, d'.at? place = some (.dir fs) ∧ es.Reordered fs ∧ es.Sound := by
  obtain ⟨fs, hfs, hentries⟩ := FileTree.Alike.exists_dir (h.rel_at? place) hdir
  exact ⟨fs, hfs, hentries, h.sound.at? hdir⟩

/-- **Following a path does not depend on the order of listing.** -/
theorem walk_eq (h : d.Reordered d') (through : Bool) (links : Nat) (place : Location)
    (steps : List String) :
    d'.walk through links place steps = d.walk through links place steps := by
  fun_induction d.walk through links place steps with
  | case1 links place => rw [walk]
  | case2 links place rest entries hdir ih =>
    obtain ⟨fs, hdir', -⟩ := h.at?_dir hdir
    rw [walk, hdir']
    exact ih
  | case3 links place rest entries hdir _ ih =>
    obtain ⟨fs, hdir', -⟩ := h.at?_dir hdir
    rw [walk, hdir']
    exact ih
  | case4 links place part rest entries hdir hdot hdots hsize =>
    obtain ⟨fs, hdir', -⟩ := h.at?_dir hdir
    rw [walk, hdir']
    simp only [if_neg hdot, if_neg hdots, if_pos hsize]
  | case5 links place part rest entries hdir hdot hdots hsize hlookup =>
    obtain ⟨fs, hdir', hentries, hsound⟩ := h.at?_dir hdir
    have hlookup' := FileTree.Alike.eq_none (hentries.rel_lookup hsound part) hlookup
    rw [walk, hdir']
    simp only [if_neg hdot, if_neg hdots, if_neg hsize, hlookup']
  | case6 links place part rest entries hdir hdot hdots hsize target hlookup hend =>
    obtain ⟨fs, hdir', hentries, hsound⟩ := h.at?_dir hdir
    have hlookup' := FileTree.Alike.eq_link (hentries.rel_lookup hsound part) hlookup
    rw [walk, hdir']
    simp only [if_neg hdot, if_neg hdots, if_neg hsize, hlookup', if_pos hend]
  | case7 place part rest entries hdir hdot hdots hsize target hlookup hend =>
    obtain ⟨fs, hdir', hentries, hsound⟩ := h.at?_dir hdir
    have hlookup' := FileTree.Alike.eq_link (hentries.rel_lookup hsound part) hlookup
    rw [walk, hdir']
    simp only [if_neg hdot, if_neg hdots, if_neg hsize, hlookup', if_neg hend]
  | case8 place part rest entries hdir hdot hdots hsize target hlookup hend links ih =>
    obtain ⟨fs, hdir', hentries, hsound⟩ := h.at?_dir hdir
    have hlookup' := FileTree.Alike.eq_link (hentries.rel_lookup hsound part) hlookup
    rw [walk, hdir']
    simp only [if_neg hdot, if_neg hdots, if_neg hsize, hlookup', if_neg hend]
    exact ih
  | case9 links place part rest entries hdir hdot hdots hsize thing hlink hlookup ih =>
    obtain ⟨fs, hdir', hentries, hsound⟩ := h.at?_dir hdir
    obtain ⟨thing', hlookup', hlink'⟩ := FileTree.Alike.exists_not_link
      (hentries.rel_lookup hsound part) hlookup fun target heq ↦ hlink target heq
    rw [walk, hdir']
    simp only [if_neg hdot, if_neg hdots, if_neg hsize, hlookup']
    exact ih
  | case10 links place part rest thing hdir hat =>
    have hat' :=
      FileTree.Alike.eq_of_not_dir (h.rel_at? place) hat fun entries heq ↦ hdir entries heq
    rw [walk, hat']
    cases thing with
    | file | link => rfl
    | dir entries => exact absurd rfl (hdir entries)
  | case11 links place part rest hat =>
    rw [walk, FileTree.Alike.eq_none (h.rel_at? place) hat]

theorem locate_eq (h : d.Reordered d') (through : Bool) (path : String) :
    d'.locate through path = d.locate through path := by
  rw [locate, locate, h.walk_eq, h.here]

/-- **What a path leads to is the same.** -/
theorem alike_find? (h : d.Reordered d') (path : String) :
    Outcome.Alike FileTree.Alike (d.find? path) (d'.find? path) := by
  rw [find?, find?, h.locate_eq]
  cases d.locate true path with
  | error cause => exact .error cause
  | ok l =>
    have hat := h.rel_at? l
    simp only
    generalize d.at? l = thing, d'.at? l = thing' at hat ⊢
    cases hat with
    | none => exact .error _
    | some hthing => exact .ok hthing

/-- A path leads to the same file. -/
theorem find?_eq_file_iff (h : d.Reordered d') {path : String} {content : ByteArray} :
    d'.find? path = .ok (.file content) ↔ d.find? path = .ok (.file content) := by
  have hfound := h.alike_find? path
  generalize d.find? path = found, d'.find? path = found' at hfound
  cases hfound with
  | error cause => exact Iff.rfl
  | ok hthing =>
    cases hthing with
    | file | link => exact Iff.rfl
    | dir => exact ⟨nofun, nofun⟩

theorem rel_entries? (h : d.Reordered d') (path : String) :
    Option.Rel Entries.Reordered (d.entries? path) (d'.entries? path) := by
  have hfound := h.alike_find? path
  rw [entries?, entries?]
  generalize d.find? path = found, d'.find? path = found' at hfound
  cases hfound with
  | error cause => exact .none
  | ok hthing =>
    cases hthing with
    | file | link => exact .none
    | dir hentries => exact .some hentries

theorem isDirectory_eq (h : d.Reordered d') (path : String) :
    d'.isDirectory path = d.isDirectory path := by
  have hentries := h.rel_entries? path
  rw [isDirectory, isDirectory]
  generalize d.entries? path = es, d'.entries? path = fs at hentries
  cases hentries <;> rfl

theorem isDirectory?_eq (h : d.Reordered d') (path : String) :
    d'.isDirectory? path = d.isDirectory? path := by
  have hfound := h.alike_find? path
  rw [isDirectory?, isDirectory?]
  generalize d.find? path = found, d'.find? path = found' at hfound
  cases hfound with
  | error cause => rfl
  | ok hthing => cases hthing <;> rfl

theorem leads?_eq (h : d.Reordered d') (path : String) : d'.leads? path = d.leads? path := by
  have hfound := h.alike_find? path
  rw [leads?, leads?]
  generalize d.find? path = found, d'.find? path = found' at hfound
  cases hfound <;> rfl

/-- **The content of a file does not depend on the order of listing.** -/
theorem read?_eq (h : d.Reordered d') (path : String) : d'.read? path = d.read? path := by
  have hfound := h.alike_find? path
  rw [read?, read?]
  generalize d.find? path = found, d'.find? path = found' at hfound
  cases hfound with
  | error cause => rfl
  | ok hthing => cases hthing <;> rfl

/-! ### Real locations -/

theorem realPath_eq (h : d.Reordered d') (depth : Nat) (followed : List Location)
    (place : Location) (parts : List String) :
    d'.realPath depth followed place parts = d.realPath depth followed place parts := by
  fun_induction d.realPath depth followed place parts with
  | case1 depth followed place => rw [realPath]
  | case2 depth followed place part rest hskip ih => rw [realPath, if_pos hskip, ih]
  | case3 depth followed place rest hstay ih => rw [realPath, if_neg hstay, if_pos rfl, ih]
  | case4 depth followed place part rest hstay hdots next target hlink hloop =>
    have hlink' := FileTree.Alike.eq_link (h.rel_at? next) hlink
    rw [realPath, if_neg hstay, if_neg hdots]
    simp only [← show next = place ++ [part] from rfl, hlink', if_pos hloop]
  | case5 followed place part rest hstay hdots next target hlink hnew =>
    have hlink' := FileTree.Alike.eq_link (h.rel_at? next) hlink
    rw [realPath, if_neg hstay, if_neg hdots]
    simp only [← show next = place ++ [part] from rfl, hlink', if_neg hnew]
  | case6 followed place part rest hstay hdots next target hlink hnew depth l hreal ihtarget ih =>
    have hlink' := FileTree.Alike.eq_link (h.rel_at? next) hlink
    rw [realPath, if_neg hstay, if_neg hdots]
    simp only [← show next = place ++ [part] from rfl, hlink', if_neg hnew, ihtarget, hreal, ih]
  | case7 followed place part rest hstay hdots next target hlink hnew depth l hreal ihtarget =>
    have hlink' := FileTree.Alike.eq_link (h.rel_at? next) hlink
    rw [realPath, if_neg hstay, if_neg hdots]
    simp only [← show next = place ++ [part] from rfl, hlink', if_neg hnew, ihtarget, hreal]
  | case8 depth followed place part rest hstay hdots next hlink ih =>
    have hlink' : ∀ target, d'.at? next ≠ some (.link target) :=
      fun target hat ↦ hlink target (FileTree.Alike.eq_link (h.symm.rel_at? next) hat)
    rw [realPath, if_neg hstay, if_neg hdots]
    simp only [← show next = place ++ [part] from rfl]
    exact ih

/-- **Where a path really ends does not depend on the order of listing.** -/
theorem resolve?_eq (h : d.Reordered d') (path : Path) : d'.resolve? path = d.resolve? path := by
  rw [resolve?, resolve?, h.realPath_eq, h.root.linkCount_eq, h.here]
  simp only [h.locate_eq]

/-! ### What is listed -/

mutual

theorem waysOf_eq (h : d.Reordered d') (enters : String → Bool) (base : Path) (way : Location) :
    ∀ thing, d'.waysOf enters base way thing = d.waysOf enters base way thing
  | .file _ => by rw [waysOf, waysOf]
  | .link _ => by rw [waysOf, waysOf, h.isDirectory_eq]
  | .dir entries => by rw [waysOf, waysOf, h.waysBelow_eq enters base way entries]

/-- What is listed below given entries does not depend on the disk. -/
theorem waysBelow_eq (h : d.Reordered d') (enters : String → Bool) (base : Path) (way : Location) :
    ∀ entries, d'.waysBelow enters base way entries = d.waysBelow enters base way entries
  | [] => by rw [waysBelow, waysBelow]
  | entry :: rest => by
    rw [waysBelow, waysBelow, h.waysOfEntry_eq enters base way entry,
      h.waysBelow_eq enters base way rest]

theorem waysOfEntry_eq (h : d.Reordered d') (enters : String → Bool) (base : Path)
    (way : Location) :
    ∀ entry, d'.waysOfEntry enters base way entry = d.waysOfEntry enters base way entry
  | (name, thing) => by
    rw [waysOfEntry, waysOfEntry, h.waysOf_eq enters base (way ++ [name]) thing]

end

/-- **The files below a directory are the same but for their order.** -/
theorem perm_filesBelow (h : d.Reordered d') (enters : String → Bool) (base : Path) :
    (d.filesBelow enters base).Perm (d'.filesBelow enters base) := by
  have hentries := h.rel_entries? base.text
  rw [filesBelow, filesBelow]
  generalize d.entries? base.text = es, d'.entries? base.text = fs at hentries ⊢
  cases hentries with
  | none => exact .nil
  | some hentries =>
    rw [Option.getD_some, Option.getD_some, h.waysBelow_eq]
    exact hentries.perm_waysBelow d enters base []

/-- The entries of a directory at a path are the same. -/
theorem reordered_entriesAt (h : d.Reordered d') (p : Path) :
    Entries.Reordered (Glob.entriesAt d p) (Glob.entriesAt d' p) := by
  have hentries := h.rel_entries? p.text
  rw [Glob.entriesAt, Glob.entriesAt]
  generalize d.entries? p.text = es, d'.entries? p.text = fs at hentries ⊢
  cases hentries with
  | none => exact .nil
  | some hentries => exact hentries

theorem isFolder?_eq (h : d.Reordered d') (p : Path) (name : String) {thing thing' : FileTree}
    (halike : thing.Alike thing') :
    Glob.isFolder? d' p name thing' = Glob.isFolder? d p name thing := by
  cases halike with
  | file | dir => rfl
  | link target => exact h.isDirectory?_eq _

theorem perm_follow (h : d.Reordered d') (directories : Bool) (steps : List Glob.Step) (p : Path) :
    (Glob.follow d directories steps p).Perm (Glob.follow d' directories steps p) := by
  induction steps generalizing p with
  | nil => exact .refl _
  | cons step rest ih =>
    cases step with
    | exactly name =>
      simp only [Glob.follow, h.leads?_eq, h.isDirectory?_eq]
      exact Glob.perm_ifSo (ih _) _
    | named pieces =>
      simp only [Glob.follow]
      refine Glob.perm_listing ((h.reordered_entriesAt p).perm_flatMap fun name thing thing' halike ↦
        ?_) p
      simp only [h.isFolder?_eq p name halike]
      refine Glob.perm_ifSo ?_ _
      split
      · exact ih _
      · exact .nil
    | deep =>
      have hentries := h.reordered_entriesAt p
      simp only [Glob.follow, Glob.directoriesOf]
      refine ((Glob.perm_listing (hentries.perm_directoriesBelow p) p).cons _).flatMap
        fun found _ ↦ ?_
      cases found with
      | error fault => exact .refl _
      | ok q => exact ih q

/-- **What a pattern finds is the same but for its order.** -/
theorem perm_select (h : d.Reordered d') (pattern : Glob.Pattern) (base : Path) :
    (pattern.select d base).Perm (pattern.select d' base) := by
  rw [Glob.Pattern.select, Glob.Pattern.select, h.isDirectory?_eq]
  exact Glob.perm_ifSo (h.perm_follow _ _ _) _

end Reordered

end Disk

end CommentScope
