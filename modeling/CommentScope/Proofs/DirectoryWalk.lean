import CommentScope.Proofs.Reordered
import Mathlib.Data.List.Lex
import Mathlib.Data.List.Nodup
import Mathlib.Data.Prod.Lex
import Mathlib.Data.String.Basic

/-!
# What is below a directory

A walk over a directory is a recursion over what is in it. What it lists is known without the
recursion (`Disk.mem_waysBelow_iff`): the ways on which something stands that is no directory and
does not lead to one, through directories that are all entered. On a sound disk no way is listed
twice (`Disk.nodup_waysBelow`), so that a list of ways is known by its members once it is sorted.
-/

namespace CommentScope

namespace Entries

variable {es inner : Entries} {name : String} {place way : Location} {thing : FileTree}

/-- What is on a way is in the directory that the way begins with, or is an entry itself. -/
theorem at?_cons_eq_some_iff : es.at? (name :: way) = some thing ↔
    (∃ inner, es.lookup name = some (.dir inner) ∧ at? inner way = some thing) ∨
      way = [] ∧ es.lookup name = some thing := by
  cases way with
  | nil =>
    constructor
    · exact fun h ↦ .inr ⟨rfl, h⟩
    · rintro (⟨inner, hname, hthing⟩ | ⟨-, h⟩)
      · exact hname.trans hthing
      · exact h
  | cons next rest =>
    rw [at?]
    · constructor
      · intro h
        split at h
        · rename_i inner hname
          exact .inl ⟨inner, hname, h⟩
        · cases h
      · rintro (⟨inner, hname, hthing⟩ | ⟨hnil, -⟩)
        · simp only [hname, hthing]
        · cases hnil
    · exact List.cons_ne_nil next rest

/-- The names on the way to something are plain. -/
theorem Sound.plain_way (h : es.Sound) (hat : es.at? way = some thing) :
    ∀ name ∈ way, Disk.IsPlain name := by
  induction way generalizing es with
  | nil => exact nofun
  | cons first rest ih =>
    rcases at?_cons_eq_some_iff.1 hat with ⟨inner, hfirst, hrest⟩ | ⟨rfl, hfirst⟩
    · have hmem := h.lookup_eq_iff.1 hfirst
      exact List.forall_mem_cons.2 ⟨h.plain _ hmem, ih (h.inside hmem) hrest⟩
    · exact List.forall_mem_singleton.2 (h.plain _ (h.lookup_eq_iff.1 hfirst))

/-- What something stands in is a directory. -/
theorem exists_dir_of_at? {front back : Location} (h : es.at? (front ++ back) = some thing)
    (hback : back ≠ []) : ∃ inner, es.at? front = some (.dir inner) := by
  induction front generalizing es with
  | nil => exact ⟨es, rfl⟩
  | cons first front ih =>
    rcases at?_cons_eq_some_iff.1 h with ⟨inner, hfirst, hrest⟩ | ⟨hnil, -⟩
    · obtain ⟨inner', hinner'⟩ := ih hrest
      exact ⟨inner', at?_cons_eq_some_iff.2 (.inl ⟨inner, hfirst, hinner'⟩)⟩
    · exact absurd (List.append_eq_nil_iff.1 hnil).2 hback

end Entries

namespace Disk

variable {d : Disk} {enters : String → Bool} {base : Path} {way way' : Location} {es : Entries}

/-- Whether a thing at a path is a directory or a link to one. -/
def isFolder (d : Disk) (path : Path) : FileTree → Bool
  | .file _ => false
  | .link _ => d.isDirectory path.text
  | .dir _ => true

/-- Whether a walk that begins at a path, in a directory with given entries, lists a way: something
stands on it that is neither a directory nor a link to one, and all directories on the way are
entered. -/
structure Lists (d : Disk) (enters : String → Bool) (base : Path) (es : Entries) (way : Location) :
    Prop where
  stands : ∃ thing, es.at? way = some thing ∧ d.isFolder (base.along way) thing = false
  entered : ∀ name ∈ way.dropLast, enters name = true

theorem Lists.ne_nil (h : d.Lists enters base es way) : way ≠ [] := by
  rintro rfl
  obtain ⟨thing, hat, hthing⟩ := h.stands
  cases hat
  cases hthing

/-- The path along one way and then along another. -/
theorem along_along (p : Path) (way rest : Location) :
    (p.along way).along rest = p.along (way ++ rest) := by
  rw [Path.along, Path.along, Path.along, List.append_assoc]

/-- What stands right in a directory is listed unless it is a directory or leads to one. -/
theorem lists_singleton_iff (hsound : es.Sound) {name : String} :
    d.Lists enters base es [name] ↔
      ∃ thing, (name, thing) ∈ es ∧ d.isFolder (base.along [name]) thing = false := by
  constructor
  · rintro ⟨⟨thing, hat, hthing⟩, -⟩
    exact ⟨thing, hsound.lookup_eq_iff.1 hat, hthing⟩
  · rintro ⟨thing, hmem, hthing⟩
    exact ⟨⟨thing, hsound.lookup_eq_iff.2 hmem, hthing⟩, nofun⟩

/-- What is deeper in a directory is listed by the walk over the directory that it is in, if this is
entered. -/
theorem lists_cons_iff (hsound : es.Sound) {name : String} (hway : way ≠ []) :
    d.Lists enters base es (name :: way) ↔ enters name = true ∧
      ∃ inner, (name, .dir inner) ∈ es ∧ d.Lists enters (base.along [name]) inner way := by
  have hpath : base.along (name :: way) = (base.along [name]).along way :=
    (along_along base [name] way).symm
  constructor
  · rintro ⟨⟨thing, hat, hthing⟩, hentered⟩
    rcases Entries.at?_cons_eq_some_iff.1 hat with ⟨inner, hname, hrest⟩ | ⟨rfl, -⟩
    · rw [List.dropLast_cons_of_ne_nil hway] at hentered
      obtain ⟨hfirst, hrests⟩ := List.forall_mem_cons.1 hentered
      rw [hpath] at hthing
      exact ⟨hfirst, inner, hsound.lookup_eq_iff.1 hname, ⟨thing, hrest, hthing⟩, hrests⟩
    · exact absurd rfl hway
  · rintro ⟨hname, inner, hmem, ⟨thing, hat, hthing⟩, hentered⟩
    have hlookup := hsound.lookup_eq_iff.2 hmem
    refine ⟨⟨thing, Entries.at?_cons_eq_some_iff.2 (.inl ⟨inner, hlookup, hat⟩), ?_⟩, ?_⟩
    · rwa [hpath]
    · rw [List.dropLast_cons_of_ne_nil hway]
      exact List.forall_mem_cons.2 ⟨hname, hentered⟩

theorem mem_waysOf_dir_iff {name : String} : way' ∈ d.waysOf enters base (way ++ [name]) (.dir es) ↔
    enters name = true ∧ way' ∈ d.waysBelow enters base (way ++ [name]) es := by
  rw [waysOf, List.getLastD_concat]
  split
  · rename_i hname
    exact ⟨fun h ↦ ⟨hname, h⟩, And.right⟩
  · rename_i hname
    exact ⟨nofun, fun h ↦ absurd h.1 hname⟩

/-- What is no directory is listed itself, unless it leads to one. -/
theorem mem_waysOf_iff {thing : FileTree} (hdir : ∀ inner, thing ≠ .dir inner) :
    way' ∈ d.waysOf enters base way thing ↔
      way' = way ∧ d.isFolder (base.along way) thing = false := by
  cases thing with
  | file content => simp [waysOf, isFolder]
  | link target =>
    rw [waysOf, isFolder]
    split
    · rename_i hfolder
      simp [hfolder]
    · rename_i hfolder
      simp [hfolder]
  | dir inner => exact absurd rfl (hdir inner)

/-- **What a walk lists.** -/
theorem mem_waysBelow_iff (hsound : es.Sound) (way way' : Location) :
    way' ∈ d.waysBelow enters base way es ↔
      ∃ rest, way' = way ++ rest ∧ d.Lists enters (base.along way) es rest := by
  induction hsound generalizing way way' with
  | @intro es distinct plain inside ih =>
    have hsound : Entries.Sound es := .intro distinct plain inside
    rw [waysBelow_eq_flatMap, List.mem_flatMap]
    constructor
    · rintro ⟨⟨name, thing⟩, hmem, hway⟩
      by_cases hdir : ∃ inner, thing = .dir inner
      · obtain ⟨inner, rfl⟩ := hdir
        obtain ⟨hname, hbelow⟩ := mem_waysOf_dir_iff.1 hway
        obtain ⟨rest, rfl, hrest⟩ := (ih hmem _ _).1 hbelow
        rw [← along_along] at hrest
        exact ⟨name :: rest, List.append_cons way name rest ▸ rfl,
          (lists_cons_iff hsound hrest.ne_nil).2 ⟨hname, inner, hmem, hrest⟩⟩
      · obtain ⟨rfl, hthing⟩ := (mem_waysOf_iff (not_exists.1 hdir)).1 hway
        rw [← along_along] at hthing
        exact ⟨[name], rfl, (lists_singleton_iff hsound).2 ⟨thing, hmem, hthing⟩⟩
    · rintro ⟨rest, rfl, hrest⟩
      cases rest with
      | nil => exact absurd rfl hrest.ne_nil
      | cons name rest =>
        by_cases hnil : rest = []
        · subst hnil
          obtain ⟨thing, hmem, hthing⟩ := (lists_singleton_iff hsound).1 hrest
          rw [along_along] at hthing
          refine ⟨(name, thing), hmem, (mem_waysOf_iff ?_).2 ⟨rfl, hthing⟩⟩
          rintro inner rfl
          cases hthing
        · obtain ⟨hname, inner, hmem, hbelow⟩ := (lists_cons_iff hsound hnil).1 hrest
          rw [along_along] at hbelow
          exact ⟨(name, .dir inner), hmem, mem_waysOf_dir_iff.2
            ⟨hname, (ih hmem _ _).2 ⟨rest, List.append_cons way name rest, hbelow⟩⟩⟩

/-- What is listed of an entry begins with its name. -/
theorem exists_eq_of_mem_waysOf (hsound : es.Sound) {name : String} {thing : FileTree}
    (hmem : (name, thing) ∈ es) (h : way' ∈ d.waysOf enters base (way ++ [name]) thing) :
    ∃ rest, way' = way ++ name :: rest := by
  by_cases hdir : ∃ inner, thing = .dir inner
  · obtain ⟨inner, rfl⟩ := hdir
    obtain ⟨rest, rfl, -⟩ :=
      (mem_waysBelow_iff (hsound.inside hmem) _ _).1 (mem_waysOf_dir_iff.1 h).2
    exact ⟨rest, (List.append_cons way name rest).symm⟩
  · exact ⟨[], ((mem_waysOf_iff (not_exists.1 hdir)).1 h).1⟩

/-- **No way is listed twice.** -/
theorem nodup_waysBelow (hsound : es.Sound) (way : Location) :
    (d.waysBelow enters base way es).Nodup := by
  induction hsound generalizing way with
  | @intro es distinct plain inside ih =>
    have hsound : Entries.Sound es := .intro distinct plain inside
    rw [waysBelow_eq_flatMap, List.nodup_flatMap]
    constructor
    · rintro ⟨name, thing⟩ hmem
      cases thing with
      | file content =>
        rw [waysOf]
        exact List.nodup_singleton _
      | link target =>
        rw [waysOf]
        split
        · exact List.nodup_nil
        · exact List.nodup_singleton _
      | dir inner =>
        rw [waysOf]
        split
        · exact ih hmem _
        · exact List.nodup_nil
    · refine (List.pairwise_map.1 distinct).imp_of_mem ?_
      intro e f he hf hne way' hway' hway''
      obtain ⟨rest, rfl⟩ := exists_eq_of_mem_waysOf hsound he hway'
      obtain ⟨rest', hsame⟩ := exists_eq_of_mem_waysOf hsound hf hway''
      exact hne (List.cons.inj (List.append_cancel_left hsame)).1

/-! ### Walks over directories at paths -/

/-- The entries of a directory of a sound disk are sound. -/
theorem sound_of_entries? (hsound : d.root.Sound) {path : String} (h : d.entries? path = some es) :
    es.Sound := by
  rw [entries?] at h
  split at h
  · rename_i entries hfound
    cases h
    obtain ⟨-, -, l, -, hat⟩ := find?_eq_ok_iff.1 hfound
    exact hsound.at? hat
  · cases h

theorem isDirectory?_eq_ok_true_iff {path : String} :
    d.isDirectory? path = .ok true ↔ ∃ es, d.entries? path = some es := by
  rw [isDirectory?, entries?]
  split <;> simp_all

/-- **What the walk over the directory at a path lists.** -/
theorem mem_filesBelow_iff (hsound : d.root.Sound) (h : d.entries? base.text = some es) :
    way ∈ d.filesBelow enters base ↔ d.Lists enters base es way := by
  have hbase : base.along [] = base := by
    rw [Path.along, List.append_nil]
  rw [filesBelow, h, Option.getD_some, mem_waysBelow_iff (sound_of_entries? hsound h), hbase]
  constructor
  · rintro ⟨rest, rfl, hrest⟩
    exact hrest
  · exact fun hway ↦ ⟨way, rfl, hway⟩

theorem nodup_filesBelow (hsound : d.root.Sound) : (d.filesBelow enters base).Nodup := by
  rw [filesBelow]
  cases h : d.entries? base.text with
  | none => exact List.nodup_nil
  | some es => exact nodup_waysBelow (sound_of_entries? hsound h) []

/-! ### Things at real locations -/

/-- The names on the way from a directory lead to what is there. -/
theorem leads_of_at? {links : Nat} {place : Location} {thing : FileTree} (hsound : es.Sound)
    (hdir : d.at? place = some (.dir es)) (hat : es.at? way = some thing)
    (hlink : ∀ target, thing ≠ .link target) : d.Leads links place way (place ++ way) := by
  induction way generalizing es place with
  | nil =>
    rw [List.append_nil]
    exact .arrived links place
  | cons name rest ih =>
    rw [List.append_cons]
    rcases Entries.at?_cons_eq_some_iff.1 hat with ⟨inner, hname, hrest⟩ | ⟨rfl, hname⟩
    · have hmem := hsound.lookup_eq_iff.1 hname
      have hinner : d.at? (place ++ [name]) = some (.dir inner) :=
        (Entries.at?_concat hdir name).trans hname
      exact .step hdir (.enter (hsound.plain _ hmem).1 hname nofun)
        (ih (hsound.inside hmem) hinner hrest)
    · have hmem := hsound.lookup_eq_iff.1 hname
      rw [List.append_nil]
      exact .step hdir (.enter (hsound.plain _ hmem).1 hname hlink) (.arrived links _)

/-- **What is at a location is found at its text**, unless it is a link. -/
theorem find?_location {l : Location} {thing : FileTree} (hsound : d.root.Sound)
    (hat : d.at? l = some thing) (hlink : ∀ target, thing ≠ .link target)
    (hsize : l.text.utf8ByteSize < maxPathSize) : d.find? l.text = .ok thing := by
  have hslash : l.text.toList.head? = some '/' := by
    rw [Location.text, String.toList_append]
    rfl
  have hstart : startOf d.here l.text = [] := if_pos hslash
  have hroot : d.at? [] = some (.dir d.root) := rfl
  refine find?_eq_ok_iff.2 ⟨?_, hsize, l, ?_, hat⟩
  · intro hempty
    have hlength := congrArg String.length hempty
    rw [Location.text, String.length_append] at hlength
    exact absurd hlength (by simp)
  · rw [hstart]
    by_cases hnil : l = []
    · subst hnil
      exact .step hroot (.stay rfl) (.arrived _ _)
    · rw [stepsOf_location hnil (hsound.plain_way hat)]
      exact leads_of_at? hsound hroot hat hlink

/-- The root is where it is. -/
theorem resolve?_root (d : Disk) : d.resolve? ⟨"/", []⟩ = .ok [] := by
  have hlocate : d.locate true (Location.text []) = .ok [] := by
    have hsteps : stepsOf (Location.text []) = ["."] := by decide +kernel
    have hstart : startOf d.here (Location.text []) = [] := if_pos (by decide)
    rw [locate, if_neg (by decide), if_neg (by decide), hstart, hsteps]
    exact walk_of_leads (.step rfl (.stay rfl) (.arrived _ _))
  have hreal : d.realPath (linkCount d.root) [] [] [] = (true, []) := by
    rw [realPath]
  have hstart : (if (Path.mk "/" []).isAbsolute then [] else d.here) = [] := if_pos (by decide)
  rw [resolve?]
  simp only [hstart, hreal, Location.follow, hlocate]

/-- The directory that is at the root. -/
theorem entries?_root (d : Disk) : d.entries? (Path.mk "/" []).text = some d.root := by
  have hsteps : stepsOf (Path.mk "/" []).text = ["."] := by decide +kernel
  have hstart : startOf d.here (Path.mk "/" []).text = [] := if_pos (by decide)
  have hfound : d.find? (Path.mk "/" []).text = .ok (.dir d.root) := by
    refine find?_eq_ok_iff.2 ⟨by decide, by decide, [], ?_, rfl⟩
    rw [hsteps, hstart]
    exact .step rfl (.stay rfl) (.arrived _ _)
  rw [entries?, hfound]

/-- **A directory is not in a file.** -/
theorem not_prefix_of_file {base l : Location} {content : ByteArray} (hsound : d.root.Sound)
    (hbase : d.at? base = some (.dir es)) (hfile : d.find? l.text = .ok (.file content)) :
    ¬ l <+: base := by
  rintro ⟨back, rfl⟩
  obtain ⟨inner, hdir⟩ : ∃ inner, d.root.at? l = some (.dir inner) := by
    cases back with
    | nil =>
      rw [List.append_nil] at hbase
      exact ⟨es, hbase⟩
    | cons name back => exact Entries.exists_dir_of_at? hbase (List.cons_ne_nil name back)
  have hsize := (find?_eq_ok_iff.1 hfile).2.1
  cases hfile.symm.trans (find?_location hsound hdir nofun hsize)

end Disk

/-! ### Sorted lists -/

section

variable {α β : Type} [LinearOrder β] {le : α → α → Bool} {key : α → β}

/-- A list that is sorted by a key is in the order of the keys. -/
theorem pairwise_mergeSort_of_key (hle : ∀ a b, le a b = true ↔ key a ≤ key b) (l : List α) :
    (l.mergeSort le).Pairwise fun a b ↦ key a ≤ key b := by
  refine (List.pairwise_mergeSort ?_ ?_ l).imp fun h ↦ (hle _ _).1 h
  · intro a b c hab hbc
    exact (hle a c).2 (((hle a b).1 hab).trans ((hle b c).1 hbc))
  · intro a b
    rw [Bool.or_eq_true, hle, hle]
    exact le_total _ _

/-- Lists in the order of the keys are the same if they have the same members and these are known by
their keys. -/
theorem eq_of_perm_of_key {l l' : List α} (hl : l.Pairwise fun a b ↦ key a ≤ key b)
    (hl' : l'.Pairwise fun a b ↦ key a ≤ key b) (hperm : l.Perm l')
    (hkey : ∀ a ∈ l, ∀ b ∈ l, key a = key b → a = b) : l = l' :=
  hperm.eq_of_pairwise (fun a b ha hb hab hba ↦
    hkey a ha b (hperm.mem_iff.2 hb) (le_antisymm hab hba)) hl hl'

/-- **Sorting forgets the order of a list** if its members are known by their keys. -/
theorem mergeSort_eq_of_perm (hle : ∀ a b, le a b = true ↔ key a ≤ key b) {l l' : List α}
    (hperm : l.Perm l') (hkey : ∀ a ∈ l, ∀ b ∈ l, key a = key b → a = b) :
    l.mergeSort le = l'.mergeSort le := by
  have hsorted := (List.mergeSort_perm l le).trans (hperm.trans (List.mergeSort_perm l' le).symm)
  exact eq_of_perm_of_key (pairwise_mergeSort_of_key hle l) (pairwise_mergeSort_of_key hle l')
    hsorted fun a ha b hb ↦ hkey a (List.mem_mergeSort.1 ha) b (List.mem_mergeSort.1 hb)

/-- Lists whose keys grow are the same if they have the same members. -/
theorem eq_of_mem_iff_of_key {l l' : List α} (hl : l.Pairwise fun a b ↦ key a < key b)
    (hl' : l'.Pairwise fun a b ↦ key a < key b) (hmem : ∀ a, a ∈ l ↔ a ∈ l') : l = l' := by
  have hne {a b : α} (h : key a < key b) : a ≠ b := fun heq ↦ lt_irrefl _ (heq ▸ h)
  have hperm : l.Perm l' := (List.perm_ext_iff_of_nodup (hl.imp hne) (hl'.imp hne)).2 hmem
  exact hperm.eq_of_pairwise (fun a b _ _ hab hba ↦ absurd hba (lt_asymm hab)) hl hl'

end

/-- Locations are compared like lists of names. -/
theorem Location.le_iff (l m : Location) : Location.le l m = true ↔ l ≤ m := by
  induction l generalizing m with
  | nil =>
    refine iff_of_true (by rw [le]) ?_
    cases m with
    | nil => exact le_refl _
    | cons b m => exact le_of_lt (List.nil_lt_cons b m)
  | cons a l ih =>
    cases m with
    | nil => simp [le]
    | cons b m =>
      have hcons : a :: l ≤ b :: m ↔ a < b ∨ a = b ∧ l ≤ m := by
        rw [le_iff_lt_or_eq, List.cons_lt_cons_iff, le_iff_lt_or_eq, List.cons.injEq]
        tauto
      rw [le, hcons, Bool.or_eq_true, Bool.and_eq_true, decide_eq_true_eq, beq_iff_eq, ih]

/-- Files come before what is deeper: ways are compared by their directories first. -/
theorem Disk.filesFirst_iff (a b : Location) :
    Disk.filesFirst a b = true ↔ toLex (a.dropLast, a) ≤ toLex (b.dropLast, b) := by
  rw [Prod.Lex.toLex_le_toLex, filesFirst]
  split
  · rename_i hdir
    simp [hdir, Location.le_iff]
  · rename_i hdir
    simp [hdir, Location.le_iff, le_iff_lt_or_eq]

end CommentScope
