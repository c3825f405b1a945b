import CommentScope.Disk.Resolve
import CommentScope.Proofs.PathText

/-!
# Files at paths

What a path leads to does not depend on how the path is written, as far as files go: a path to a
file leads to the same file when it is written without single dots and with no more slashes than it
needs (`Disk.find?_text`). It does not end in a slash or in a single dot, for behind these there are
only directories; so its suffix is an ending of its text (`Disk.hasEnding_suffix`).

For this, following a path is said once more as a relation (`Disk.Leads`) that takes one part at a
time, and steps to where one is are taken out of it.
-/

namespace CommentScope

/-! ### Following paths -/

/-- What is at an entry of a directory. -/
theorem Entries.at?_concat {entries : Entries} : ∀ {root : Entries} {place : Location},
    root.at? place = some (.dir entries) →
      ∀ name, root.at? (place ++ [name]) = entries.lookup name
  | root, [], h, name => by
    cases h
    rfl
  | root, [first], h, name => by
    have hfirst : root.lookup first = some (.dir entries) := h
    show root.at? [first, name] = _
    simp only [at?, hfirst]
  | root, first :: next :: rest, h, name => by
    rw [at?] at h
    · split at h
      · rename_i below hbelow
        have hnext := at?_concat h name
        show root.at? (first :: next :: (rest ++ [name])) = _
        simp only [at?, hbelow]
        exact hnext
      · cases h
    · exact List.cons_ne_nil next rest
namespace Disk

/-- Whether a name of a path stands for an entry of the directory that it is met in. -/
def IsEntry (part : String) : Prop := part ≠ "." ∧ part ≠ ".." ∧ part.utf8ByteSize ≤ maxNameSize

instance (part : String) : Decidable (IsEntry part) :=
  inferInstanceAs (Decidable (_ ∧ _ ∧ _))

/-- One part of a path is followed from a place with given entries. `links` more links may be on the
way before it. It says how many may be after it, where it leads, and which parts of a link are to be
followed from there. -/
inductive Step (d : Disk) (links : Nat) (place : Location) (entries : Entries) (part : String) :
    Nat → Location → List String → Prop
  | stay : part = "." → Step d links place entries part links place []
  | leave : part = ".." → Step d links place entries part links place.dropLast []
  | enter {thing : FileTree} : IsEntry part → entries.lookup part = some thing →
      (∀ target, thing ≠ .link target) → Step d links place entries part links (place ++ [part]) []
  | turn {target : String} {fewer : Nat} : IsEntry part →
      entries.lookup part = some (.link target) → links = fewer + 1 →
      Step d links place entries part fewer (startOf place target) (stepsOf target)

/-- A step to where one is leads nowhere else. -/
theorem Step.of_dot {d : Disk} {links links' : Nat} {place place' : Location} {entries : Entries}
    {parts : List String} (h : d.Step links place entries "." links' place' parts) :
    links' = links ∧ place' = place ∧ parts = [] := by
  cases h with
  | stay => exact ⟨rfl, rfl, rfl⟩
  | leave h => exact absurd h (by decide)
  | enter hentry => exact absurd rfl hentry.1
  | turn hentry => exact absurd rfl hentry.1

/-- The parts of a path lead from a place to another one. -/
inductive Leads (d : Disk) : Nat → Location → List String → Location → Prop
  | arrived (links : Nat) (place : Location) : Leads d links place [] place
  | step {links links' : Nat} {place place' l : Location} {entries : Entries} {part : String}
      {parts rest : List String} : d.at? place = some (.dir entries) →
      Step d links place entries part links' place' parts →
      Leads d links' place' (parts ++ rest) l →
      Leads d links place (part :: rest) l

variable {d : Disk} {links : Nat} {place l : Location}

theorem leads_of_walk {steps : List String} (h : d.walk true links place steps = .ok l) :
    d.Leads links place steps l := by
  generalize hthrough : true = through at h
  fun_induction d.walk through links place steps with
  | case1 links place =>
    cases h
    exact .arrived _ _
  | case2 links place rest entries hdir ih => exact .step hdir (.stay rfl) (ih h)
  | case3 links place rest entries hdir _ ih => exact .step hdir (.leave rfl) (ih h)
  | case8 place part rest entries hdir hdot hdots hsize target hlookup _ links ih =>
    exact .step hdir (.turn ⟨hdot, hdots, Nat.not_lt.1 hsize⟩ hlookup rfl) (ih h)
  | case9 links place part rest entries hdir hdot hdots hsize thing hlink hlookup ih =>
    have hentry : IsEntry part := ⟨hdot, hdots, Nat.not_lt.1 hsize⟩
    exact .step hdir (.enter hentry hlookup fun target ht ↦ hlink target ht) (ih h)
  | case6 links place part rest entries _ _ _ _ target _ hend =>
    subst hthrough
    simp at hend
  | case4 | case5 | case7 | case10 | case11 => cases h

theorem walk_of_leads {steps : List String} (h : d.Leads links place steps l) :
    d.walk true links place steps = .ok l := by
  induction h with
  | arrived links place => rw [walk]
  | @step links links' place place' l entries part parts rest hdir hstep _ ih =>
    rw [walk, hdir]
    cases hstep with
    | stay hpart =>
      subst hpart
      exact ih
    | leave hpart =>
      subst hpart
      exact ih
    | enter hentry hlookup hlink =>
      obtain ⟨hdot, hdots, hsize⟩ := hentry
      simp only [if_neg hdot, if_neg hdots, if_neg (Nat.not_lt.2 hsize), hlookup]
      exact ih
    | turn hentry hlookup hlinks =>
      obtain ⟨hdot, hdots, hsize⟩ := hentry
      subst hlinks
      simp only [if_neg hdot, if_neg hdots, if_neg (Nat.not_lt.2 hsize), hlookup]
      simpa using ih

theorem Leads.drop_dot {front back : List String}
    (h : d.Leads links place (front ++ "." :: back) l) :
    d.Leads links place (front ++ back) l := by
  generalize hsteps : front ++ "." :: back = steps at h
  induction h generalizing front with
  | arrived => exact absurd hsteps (by simp)
  | @step links links' place place' l entries part parts rest hdir hstep hrest ih =>
    cases front with
    | nil =>
      cases hsteps
      obtain ⟨rfl, rfl, rfl⟩ := hstep.of_dot
      exact hrest
    | cons first front =>
      cases hsteps
      have hnext := ih (List.append_assoc parts front ("." :: back))
      rw [List.append_assoc] at hnext
      exact .step hdir hstep hnext

/-- **Steps to where one is can be left out.** -/
theorem Leads.without_dots {front back : List String} (h : d.Leads links place (front ++ back) l) :
    d.Leads links place (front ++ back.filter (· != ".")) l := by
  induction back generalizing front with
  | nil => exact h
  | cons part back ih =>
    by_cases hpart : part = "."
    · subst hpart
      exact ih h.drop_dot
    · rw [List.filter_cons_of_pos (by simpa using hpart)]
      have hnext := @ih (front ++ [part])
      simp only [List.append_assoc, List.singleton_append] at hnext
      exact hnext h

/-- Behind a step to where one is there is a directory. -/
theorem Leads.dir_of_dot {front : List String} (h : d.Leads links place (front ++ ["."]) l) :
    ∃ entries, d.at? l = some (.dir entries) := by
  generalize hsteps : front ++ ["."] = steps at h
  induction h generalizing front with
  | arrived => exact absurd hsteps (by simp)
  | @step links links' place place' l entries part parts rest hdir hstep hrest ih =>
    cases front with
    | nil =>
      cases hsteps
      obtain ⟨rfl, rfl, rfl⟩ := hstep.of_dot
      cases hrest
      exact ⟨entries, hdir⟩
    | cons first front =>
      cases hsteps
      exact ih (List.append_assoc _ _ _)

theorem find?_eq_ok_iff {path : String} {thing : FileTree} :
    d.find? path = .ok thing ↔ path ≠ "" ∧ path.utf8ByteSize < maxPathSize ∧
      ∃ l, d.Leads maxLinks (startOf d.here path) (stepsOf path) l ∧ d.at? l = some thing := by
  constructor
  · intro h
    rw [find?, locate] at h
    split at h
    · cases h
    · rename_i l hlocate
      split at hlocate
      · cases hlocate
      · rename_i hempty
        split at hlocate
        · cases hlocate
        · rename_i hsize
          split at h
          · rename_i t hat
            cases h
            exact ⟨fun hnil ↦ hempty (String.isEmpty_iff.2 hnil), Nat.not_le.1 hsize, l,
              leads_of_walk hlocate, hat⟩
          · cases h
  · rintro ⟨hne, hsize, l, hleads, hat⟩
    rw [find?, locate, if_neg (fun hempty ↦ hne (String.isEmpty_iff.1 hempty)),
      if_neg (Nat.not_le.2 hsize), walk_of_leads hleads]
    simp only [hat]

/-- What is read is a file that is found. -/
theorem read?_eq_ok_iff {path : String} {content : ByteArray} :
    d.read? path = .ok content ↔ d.find? path = .ok (.file content) := by
  rw [read?]
  cases d.find? path with
  | error fault => exact iff_of_false (fun h ↦ by cases h) (fun h ↦ by cases h)
  | ok thing =>
    cases thing with
    | file found => exact ⟨fun h ↦ by cases h; rfl, fun h ↦ by cases h; rfl⟩
    | dir es => exact iff_of_false (fun h ↦ by cases h) (fun h ↦ by cases h)
    | link target => exact iff_of_false (fun h ↦ by cases h) (fun h ↦ by cases h)

section

variable {path : String} {content : ByteArray}

theorem stepsOf_of_getLast? (h : path.toList.getLast? ≠ some '/') :
    stepsOf path = (Path.pieces path).filter (· != "") := if_neg h

/-- The steps of a path without those to where one is are its parts. -/
theorem filter_stepsOf (path : String) :
    (stepsOf path).filter (· != ".") = (Path.ofText path).parts := by
  have hparts : ((Path.pieces path).filter (· != "")).filter (· != ".") =
      (Path.ofText path).parts := by
    rw [List.filter_filter]
    exact List.filter_congr fun p _ ↦ Bool.and_comm _ _
  rw [stepsOf]
  split
  · rw [List.filter_append, hparts]
    exact List.append_nil _
  · exact hparts

/-- The real location of an entry of a directory that is no link. -/
theorem realPath_entry {entries : Entries} {name : String} (depth : Nat) (followed : List Location)
    (hdir : d.at? place = some (.dir entries)) (hentry : IsEntry name) (hne : name ≠ "")
    (hlink : ∀ target, entries.lookup name ≠ some (.link target)) :
    d.realPath depth followed place [name] = (true, place ++ [name]) := by
  obtain ⟨hdot, hdots, -⟩ := hentry
  have hat : d.at? (place ++ [name]) = entries.lookup name := Entries.at?_concat hdir name
  rw [realPath, if_neg (not_or.2 ⟨hne, hdot⟩), if_neg hdots]
  simp only [hat]
  rw [realPath]

/-- **The path to a file ends with its name.** -/
theorem exists_name_of_find? (h : d.find? path = .ok (.file content)) :
    ∃ front name, Path.pieces path = front ++ [name] ∧ name ≠ "" ∧ name ≠ "." := by
  obtain ⟨hne, -, l, hleads, hat⟩ := find?_eq_ok_iff.1 h
  have hnot : ∀ front, stepsOf path ≠ front ++ ["."] := by
    intro front hsteps
    rw [hsteps] at hleads
    obtain ⟨entries, hdir⟩ := hleads.dir_of_dot
    rw [hat] at hdir
    cases hdir
  have hlast : path.toList.getLast? ≠ some '/' :=
    fun hslash ↦ hnot _ (if_pos hslash)
  rw [stepsOf_of_getLast? hlast] at hnot
  obtain ⟨front, name, hpieces⟩ : ∃ front name, Path.pieces path = front ++ [name] :=
    ⟨_, _, (List.dropLast_append_getLast (Path.pieces_ne_nil path)).symm⟩
  have hjoined := Path.intercalate_pieces path
  refine ⟨front, name, hpieces, ?_, ?_⟩
  · rintro rfl
    rw [hpieces] at hjoined
    cases front with
    | nil => exact hne hjoined.symm
    | cons first front =>
      refine hlast ?_
      rw [← hjoined, Path.toList_intercalate_slash, List.map_append,
        List.map_singleton, Text.joinWith_concat _ _ (by simp)]
      simp
  · rintro rfl
    refine hnot (front.filter (· != "")) ?_
    rw [hpieces, List.filter_append]
    rfl

/-- The parts of a path that ends with a name. -/
theorem parts_concat {front : List String} {name : String} (h : Path.pieces path = front ++ [name])
    (hname : name ≠ "") (hdot : name ≠ ".") :
    ∃ before, (Path.ofText path).parts = before ++ [name] := by
  refine ⟨front.filter fun p ↦ p != "" && p != ".", ?_⟩
  show (Path.pieces path).filter (fun p ↦ p != "" && p != ".") = _
  rw [h, List.filter_append]
  congr 1
  simp [hname, hdot]

/-- Parts that are put together are the steps of the path. -/
theorem stepsOf_intercalate {before : List String} {name : String}
    (h : ∀ p ∈ before ++ [name], p ≠ "" ∧ '/' ∉ p.toList) :
    stepsOf ("/".intercalate (before ++ [name])) = before ++ [name] := by
  obtain ⟨hname, hslash⟩ := h name (List.mem_append_right _ (List.mem_singleton_self _))
  rw [stepsOf_of_getLast?, Path.pieces_intercalate (by simp) fun p hp ↦ (h p hp).2]
  · exact List.filter_eq_self.2 fun p hp ↦ by simpa using (h p hp).1
  · rw [Path.toList_intercalate_slash, List.map_append]
    exact Text.getLast?_joinWith_concat _ (by simpa using hname) hslash

/-- A path whose first part is not empty begins where relative paths do. -/
theorem startOf_intercalate (here : Location) {parts : List String} (hne : parts ≠ [])
    (h : ∀ p ∈ parts, p ≠ "" ∧ '/' ∉ p.toList) : startOf here ("/".intercalate parts) = here := by
  cases parts with
  | nil => exact absurd rfl hne
  | cons first parts =>
    obtain ⟨hfirst, hslash⟩ := h first List.mem_cons_self
    refine if_neg ?_
    rw [Path.toList_intercalate_slash, List.map_cons]
    exact Text.head?_joinWith_cons _ (by simpa using hfirst) hslash

/-- **A file is found at the text of its path.** -/
theorem find?_text (hrelative : path.toList.head? ≠ some '/')
    (h : d.find? path = .ok (.file content)) :
    d.find? (Path.ofText path).text = .ok (.file content) := by
  obtain ⟨front, name, hpieces, hname, hdot⟩ := exists_name_of_find? h
  obtain ⟨-, hsize, l, hleads, hat⟩ := find?_eq_ok_iff.1 h
  obtain ⟨before, hparts⟩ := parts_concat hpieces hname hdot
  have hne : (Path.ofText path).parts ≠ [] := by
    rw [hparts]
    exact List.concat_ne_nil _ _
  have hplain : ∀ p ∈ (Path.ofText path).parts, p ≠ "" ∧ '/' ∉ p.toList := by
    intro p hp
    obtain ⟨hmem, hkept⟩ := List.mem_filter.1 hp
    exact ⟨by simpa using (Bool.and_eq_true_iff.1 hkept).1,
      Path.slash_not_mem_of_mem_pieces hmem⟩
  have hsteps : stepsOf ("/".intercalate (Path.ofText path).parts) = (Path.ofText path).parts := by
    rw [hparts] at hplain ⊢
    exact stepsOf_intercalate hplain
  have hpath : startOf d.here path = d.here := if_neg hrelative
  have hfollowed := @Leads.without_dots d maxLinks (startOf d.here path) l [] (stepsOf path) hleads
  rw [filter_stepsOf, hpath] at hfollowed
  rw [Path.text_ofText hrelative hne]
  refine find?_eq_ok_iff.2 ⟨?_, ?_, l, ?_, hat⟩
  · intro hempty
    rw [hempty] at hsteps
    exact hne hsteps.symm
  · exact Nat.lt_of_le_of_lt (Path.utf8ByteSize_intercalate_parts_le path) hsize
  · rw [hsteps, startOf_intercalate d.here hne hplain]
    exact hfollowed

/-- The name of a file is an ending of its path. -/
theorem name_suffix (h : d.find? path = .ok (.file content)) :
    (Path.ofText path).name.toList <:+ path.toList := by
  obtain ⟨front, name, hpieces, hname, hdot⟩ := exists_name_of_find? h
  obtain ⟨before, hparts⟩ := parts_concat hpieces hname hdot
  have hlast : (Path.ofText path).name = name := by
    rw [Path.name, hparts]
    simp
  have hjoined := Path.toList_intercalate_slash (Path.pieces path)
  rw [Path.intercalate_pieces, hpieces, List.map_append] at hjoined
  rw [hlast, hjoined]
  exact Text.suffix_joinWith_concat _ _

/-- **The suffix of the path to a file is an ending of it.** -/
theorem hasEnding_suffix (h : d.find? path = .ok (.file content)) :
    Path.HasEnding path (Path.ofText path).suffix := by
  refine ⟨(Path.suffixOf (Path.ofText path).name).toList, ?_, ?_⟩
  · exact (Path.suffixOf_suffix _).trans (name_suffix h)
  · rw [String.ofList_toList]
    rfl

end

section

variable {name target : String} {entries : Entries}

/-- A path of one part is followed by what the part stands for. -/
theorem walk_singleton (hdir : d.at? place = some (.dir entries)) (hentry : IsEntry name)
    (links : Nat) : d.walk true links place [name] =
      match entries.lookup name with
      | none => .error .notFound
      | some (.link target) =>
        match links with
        | 0 => .error .tooManyLinks
        | links + 1 => d.walk true links (startOf place target) (stepsOf target)
      | some _ => .ok (place ++ [name]) := by
  obtain ⟨hdot, hdots, hsize⟩ := hentry
  rw [walk, hdir]
  simp only [if_neg hdot, if_neg hdots, if_neg (Nat.not_lt.2 hsize), Bool.not_true, Bool.and_false,
    Bool.false_eq_true, if_false, List.append_nil]
  cases entries.lookup name with
  | none => rfl
  | some thing =>
    cases thing with
    | link target => rfl
    | file | dir =>
      simp only []
      rw [walk]

/-- Where there is a link, links are counted. -/
theorem linkCount_ne_zero (h : entries.lookup name = some (.link target)) :
    linkCount entries ≠ 0 := by
  induction entries with
  | nil => cases h
  | cons e entries ih =>
    obtain ⟨first, thing⟩ := e
    rw [List.lookup_cons] at h
    rw [linkCount, linksOfEntry]
    split at h
    · cases h
      rw [linksOf]
      omega
    · have hrest := ih h
      omega

end

/-! ### Plain names -/

/-- Whether a name is one of an entry and can be written as a path. -/
def IsPlain (name : String) : Prop := IsEntry name ∧ name ≠ "" ∧ '/' ∉ name.toList

instance (name : String) : Decidable (IsPlain name) :=
  inferInstanceAs (Decidable (_ ∧ _ ∧ _))

/-- A location is followed by its names. -/
theorem stepsOf_location {l : Location} (hne : l ≠ []) (h : ∀ name ∈ l, IsPlain name) :
    stepsOf l.text = l := by
  have htext : l.text = "/".intercalate ("" :: l) := by
    rw [String.intercalate_cons_of_ne_nil hne, String.empty_append]
    rfl
  obtain ⟨front, last, rfl⟩ : ∃ front last, l = front ++ [last] :=
    ⟨_, _, (List.dropLast_append_getLast hne).symm⟩
  obtain ⟨-, hlast, hslash⟩ := h last (List.mem_append_right front (List.mem_singleton_self last))
  rw [htext, stepsOf_of_getLast?, Path.pieces_intercalate (List.cons_ne_nil _ _)]
  · refine (List.filter_cons_of_neg (by simp)).trans (List.filter_eq_self.2 fun name hname ↦ ?_)
    simpa using (h name hname).2.1
  · refine List.forall_mem_cons.2 ⟨by simp, fun name hname ↦ (h name hname).2.2⟩
  · rw [Path.toList_intercalate_slash, List.map_cons, List.map_append, ← List.cons_append]
    exact Text.getLast?_joinWith_concat _ (by simpa using hlast) hslash

/-- **Plain names with slashes between them are the parts of a path.** -/
theorem ofText_intercalate {parts : List String} (hne : parts ≠ [])
    (h : ∀ name ∈ parts, IsPlain name) : Path.ofText ("/".intercalate parts) = ⟨"", parts⟩ := by
  have hpieces : Path.pieces ("/".intercalate parts) = parts :=
    Path.pieces_intercalate hne fun name hname ↦ (h name hname).2.2
  have hanchor : Path.anchorOf ("/".intercalate parts) = "" := by
    refine Path.anchorOf_eq_empty ?_
    cases parts with
    | nil => exact absurd rfl hne
    | cons first rest =>
      obtain ⟨-, hfirst, hslash⟩ := h first List.mem_cons_self
      rw [Path.toList_intercalate_slash, List.map_cons]
      exact Text.head?_joinWith_cons _ (by simpa using hfirst) hslash
  rw [Path.ofText, hanchor, hpieces]
  congr 1
  refine List.filter_eq_self.2 fun name hname ↦ ?_
  obtain ⟨⟨hdot, -, -⟩, hempty, -⟩ := h name hname
  simp [hempty, hdot]

namespace IsPlain

variable {name target : String} {entries : Entries} {thing : FileTree}

theorem pieces_eq (h : IsPlain name) : Path.pieces name = [name] := by
  obtain ⟨-, -, hslash⟩ := h
  rw [Path.pieces, Text.splitOn_of_not_mem hslash, List.map_singleton, String.ofList_toList]

theorem ofText_eq (h : IsPlain name) : Path.ofText name = ⟨"", [name]⟩ := by
  have hparts := ofText_intercalate (List.cons_ne_nil name []) (List.forall_mem_singleton.2 h)
  rwa [String.intercalate_singleton] at hparts

theorem text_ofText (h : IsPlain name) : (Path.ofText name).text = name := by
  rw [h.ofText_eq]
  show "" ++ "/".intercalate [name] = name
  rw [String.intercalate_singleton, String.empty_append]

theorem stepsOf_eq (h : IsPlain name) : stepsOf name = [name] := by
  obtain ⟨-, hne, hslash⟩ := id h
  have hlast : name.toList.getLast? ≠ some '/' := fun hlast ↦ hslash (List.mem_of_getLast? hlast)
  rw [stepsOf_of_getLast? hlast, h.pieces_eq]
  simp [hne]

theorem walk_eq (h : IsPlain name) (hlookup : entries.lookup name = some thing)
    (hlink : ∀ target, thing ≠ .link target) :
    (Disk.mk entries []).walk true maxLinks [] [name] = .ok ([] ++ [name]) := by
  have hdir : (Disk.mk entries []).at? [] = some (.dir entries) := rfl
  rw [walk_singleton hdir h.1, hlookup]
  cases thing with
  | link s => exact absurd rfl (hlink s)
  | file | dir => rfl

theorem locate_eq (h : IsPlain name) : (Disk.mk entries []).locate true name =
    (Disk.mk entries []).walk true maxLinks [] [name] := by
  have hlimit : name.utf8ByteSize < maxPathSize := Nat.lt_of_le_of_lt h.1.2.2 (by decide)
  rw [locate, if_neg (fun hempty ↦ h.2.1 (String.isEmpty_iff.1 hempty)),
    if_neg (Nat.not_le.2 hlimit), h.stepsOf_eq]
  congr 1
  exact ite_self []

theorem locate_location (h : IsPlain name) :
    (Disk.mk entries []).locate true (Location.text [name]) =
      (Disk.mk entries []).walk true maxLinks [] [name] := by
  have hsteps := stepsOf_location (List.cons_ne_nil name []) (List.forall_mem_singleton.2 h)
  have hsize : (Location.text [name]).utf8ByteSize = 1 + name.utf8ByteSize := by
    rw [Location.text, String.utf8ByteSize_append]
    rfl
  have hname : name.utf8ByteSize ≤ 255 := h.1.2.2
  have hlimit : maxPathSize = 4096 := rfl
  have hempty : (Location.text [name]).isEmpty = false := by
    rw [← Bool.not_eq_true, String.isEmpty_iff, ← String.utf8ByteSize_eq_zero_iff]
    omega
  rw [locate, hempty, if_neg Bool.false_ne_true, if_neg (by omega), hsteps]
  congr 1
  exact ite_self []

/-- What a name in the root directory leads to. -/
theorem find?_eq (h : IsPlain name) (hlookup : entries.lookup name = some thing)
    (hlink : ∀ target, thing ≠ .link target) : (Disk.mk entries []).find? name = .ok thing := by
  rw [find?, h.locate_eq, h.walk_eq hlookup hlink]
  simp only [List.nil_append, at?, Entries.at?, hlookup]

theorem find?_location (h : IsPlain name) (hlookup : entries.lookup name = some thing)
    (hlink : ∀ target, thing ≠ .link target) :
    (Disk.mk entries []).find? (Location.text [name]) = .ok thing := by
  rw [find?, h.locate_location, h.walk_eq hlookup hlink]
  simp only [List.nil_append, at?, Entries.at?, hlookup]

/-- What a link in the root directory leads to. -/
theorem find?_link (h : IsPlain name) (h' : IsPlain target)
    (hlookup : entries.lookup name = some (.link target))
    (hlink : ∀ s, entries.lookup target ≠ some (.link s)) :
    (Disk.mk entries []).find? name =
      match entries.lookup target with
      | some thing => .ok thing
      | none => .error .notFound := by
  have hdir : (Disk.mk entries []).at? [] = some (.dir entries) := rfl
  have hstart : startOf [] target = [] := ite_self []
  rw [find?, h.locate_eq, walk_singleton hdir h.1, hlookup]
  simp only [maxLinks, hstart, h'.stepsOf_eq]
  rw [walk_singleton hdir h'.1]
  cases hthing : entries.lookup target with
  | none => rfl
  | some thing =>
    cases thing with
    | link s => exact absurd hthing (hlink s)
    | file | dir =>
      simp only [List.nil_append, at?, Entries.at?, hthing]

/-- The real location of a path that is followed to a name in the root directory. -/
theorem resolve?_of_realPath {p : Path} (h : IsPlain name)
    (hlink : ∀ s, entries.lookup name ≠ some (.link s))
    (hreal : (Disk.mk entries []).realPath (linkCount entries) [] [] p.parts = (true, [name])) :
    (Disk.mk entries []).resolve? p = .ok [name] := by
  obtain ⟨hentry, hne, -⟩ := id h
  have hdir : (Disk.mk entries []).at? [] = some (.dir entries) := rfl
  have hstart : (if p.isAbsolute then [] else ([] : Location)) = [] := ite_self []
  have hfollow : Location.follow [] [name] = [name] := by
    rw [Location.follow, if_neg (not_or.2 ⟨hne, hentry.1⟩), if_neg hentry.2.1]
    rfl
  rw [resolve?]
  simp only [hstart, hreal, hfollow]
  rw [h.locate_location, walk_singleton hdir hentry]
  cases hthing : entries.lookup name with
  | none => rfl
  | some thing =>
    cases thing with
    | link s => exact absurd hthing (hlink s)
    | file | dir => rfl

/-- Where a name in the root directory really is if it is no link, whether or not something is
there. -/
theorem resolve?_of_not_link (h : IsPlain name)
    (hlink : ∀ s, entries.lookup name ≠ some (.link s)) (anchor : String) :
    (Disk.mk entries []).resolve? ⟨anchor, [name]⟩ = .ok [name] :=
  h.resolve?_of_realPath hlink (realPath_entry _ [] rfl h.1 h.2.1 hlink)

/-- Where a link in the root directory really leads. -/
theorem resolve?_link (h : IsPlain name) (h' : IsPlain target)
    (hlookup : entries.lookup name = some (.link target))
    (hlink : ∀ s, entries.lookup target ≠ some (.link s)) (anchor : String) :
    (Disk.mk entries []).resolve? ⟨anchor, [name]⟩ = .ok [target] := by
  obtain ⟨⟨hdot, hdots, -⟩, hne, -⟩ := id h
  refine h'.resolve?_of_realPath hlink ?_
  obtain ⟨depth, hdepth⟩ := Nat.exists_eq_succ_of_ne_zero (linkCount_ne_zero hlookup)
  have hat : (Disk.mk entries []).at? ([] ++ [name]) = some (.link target) := hlookup
  have hstart : startOf [] target = [] := ite_self []
  have hdir : (Disk.mk entries []).at? [] = some (.dir entries) := rfl
  have htarget := realPath_entry depth [[] ++ [name]] hdir h'.1 h'.2.1 hlink
  rw [realPath, if_neg (not_or.2 ⟨hne, hdot⟩), if_neg hdots, hdepth]
  simp only [hat, hstart, h'.pieces_eq, htarget]
  simp [realPath]

/-- Where an entry of the root directory is. -/
theorem resolve?_eq (h : IsPlain name) (hlookup : entries.lookup name = some thing)
    (hlink : ∀ target, thing ≠ .link target) (anchor : String) :
    (Disk.mk entries []).resolve? ⟨anchor, [name]⟩ = .ok [name] := by
  refine h.resolve?_of_not_link (fun s hs ↦ ?_) anchor
  rw [hlookup] at hs
  exact hlink s (Option.some.inj hs)

end IsPlain

end Disk

end CommentScope
