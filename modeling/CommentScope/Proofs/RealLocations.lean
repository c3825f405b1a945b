import CommentScope.Proofs.DirectoryWalk

/-!
# Real locations of what is there

A path is followed in two ways: to find what is at it (`Disk.find?`), and to say where it really is
(`Disk.resolve?`). The first gives up after a number of links, and the second at a link that it meets
while it is following this very link. Where the first arrives the second arrives too, and at the same
place (`Disk.resolve?_of_find?`).

The argument counts links. Following a path takes a fixed number of links (`Disk.Takes.unique`), and
following a link on the path takes fewer than that, so no link is met while it is being followed. The
links that are being followed are therefore distinct, and no more of them are ever followed at once than
the disk has (`Disk.length_le_linkCount`).
-/

namespace CommentScope

/-! ### Paths and their texts -/

namespace Path

variable {p : Path} {s : String}

/-- The parts of a path are neither empty nor a single dot, and have no slashes in them. -/
theorem parts_ofText (s : String) :
    ∀ part ∈ (ofText s).parts, part ≠ "" ∧ part ≠ "." ∧ '/' ∉ part.toList := by
  intro part hpart
  obtain ⟨hmem, hkept⟩ := List.mem_filter.1 hpart
  obtain ⟨hempty, hdot⟩ := Bool.and_eq_true_iff.1 hkept
  exact ⟨by simpa using hempty, by simpa using hdot, slash_not_mem_of_mem_pieces hmem⟩

theorem anchor_ofText (s : String) :
    (ofText s).anchor = "" ∨ (ofText s).anchor = "/" ∨ (ofText s).anchor = "//" := by
  show anchorOf s = "" ∨ anchorOf s = "/" ∨ anchorOf s = "//"
  rw [anchorOf]
  split
  · exact .inl rfl
  · exact .inr (.inr rfl)
  · exact .inr (.inl rfl)

theorem pieces_slash_append (s : String) : pieces ("/" ++ s) = "" :: pieces s := by
  rw [pieces, String.toList_append]
  show (Text.splitOn '/' ('/' :: s.toList)).map String.ofList = _
  rw [← List.nil_append ('/' :: s.toList), Text.splitOn_append_cons List.not_mem_nil]
  rfl

/-- The parts of a path are found again in its text. -/
theorem parts_text (s : String) : (ofText (ofText s).text).parts = (ofText s).parts := by
  have hparts := parts_ofText s
  have hjoined : (ofText ("/".intercalate (ofText s).parts)).parts = (ofText s).parts := by
    by_cases hne : (ofText s).parts = []
    · rw [hne]
      rfl
    · show (pieces _).filter _ = _
      rw [pieces_intercalate hne fun part hpart ↦ (hparts part hpart).2.2]
      refine List.filter_eq_self.2 fun part hpart ↦ ?_
      obtain ⟨hempty, hdot, -⟩ := hparts part hpart
      simp [hempty, hdot]
  have hslash (s : String) : (ofText ("/" ++ s)).parts = (ofText s).parts := by
    show (pieces _).filter _ = (pieces _).filter _
    rw [pieces_slash_append]
    rfl
  rw [text]
  split
  · rename_i hempty
    obtain ⟨-, hnil⟩ := Bool.and_eq_true_iff.1 hempty
    rw [List.isEmpty_iff.1 hnil]
    decide +kernel
  · rcases anchor_ofText s with h | h | h
    · rw [h, String.empty_append, hjoined]
    · rw [h, hslash, hjoined]
    · have htwo : "//" ++ "/".intercalate (ofText s).parts =
          "/" ++ ("/" ++ "/".intercalate (ofText s).parts) := by
        rw [← String.append_assoc]
        rfl
      rw [h, htwo, hslash, hslash, hjoined]

/-- The text of a path begins where the path does. -/
theorem startOf_text (here : Location) (s : String) :
    Disk.startOf here (ofText s).text = if (ofText s).isAbsolute then [] else here := by
  rw [isAbsolute, text]
  rcases anchor_ofText s with h | h | h
  · by_cases hnil : (ofText s).parts = []
    · rw [h, hnil]
      exact if_neg (by decide)
    · have hplain : ∀ p ∈ (ofText s).parts, p ≠ "" ∧ '/' ∉ p.toList := fun p hp ↦
        ⟨(parts_ofText s p hp).1, (parts_ofText s p hp).2.2⟩
      have hempty : (ofText s).parts.isEmpty = false := by simpa using hnil
      rw [h, hempty]
      simp only [Bool.and_false, Bool.false_eq_true, if_false, String.empty_append]
      rw [Disk.startOf_intercalate here hnil hplain]
      rfl
  · rw [h]
    simp [Disk.startOf, String.toList_append]
  · rw [h]
    simp [Disk.startOf, String.toList_append]

end Path

/-- Plain names are followed one after the other. -/
theorem Location.follow_eq_append {l : Location} (h : ∀ name ∈ l, Disk.IsPlain name)
    (place : Location) : Location.follow place l = place ++ l := by
  induction l generalizing place with
  | nil => rw [follow, List.append_nil]
  | cons name l ih =>
    obtain ⟨⟨⟨hdot, hdots, -⟩, hempty, -⟩, hl⟩ := List.forall_mem_cons.1 h
    rw [follow, if_neg (not_or.2 ⟨hempty, hdot⟩), if_neg hdots, ih hl, List.append_assoc]
    rfl

namespace Disk

variable {d : Disk} {place mid l l' : Location} {part target : String}
  {parts rest front back : List String} {links m n : Nat}

/-! ### The number of links on a path -/

/-- Following the parts of a path takes a number of links, from a place to another one. Behind a part
that is not there the path is taken as it is written. -/
inductive Takes (d : Disk) : Nat → Location → List String → Location → Prop
  | arrived (place : Location) : Takes d 0 place [] place
  | skip {n : Nat} {place l : Location} {part : String} {rest : List String} :
      part = "" ∨ part = "." → Takes d n place rest l → Takes d n place (part :: rest) l
  | leave {n : Nat} {place l : Location} {part : String} {rest : List String} :
      part = ".." → Takes d n place.dropLast rest l → Takes d n place (part :: rest) l
  | enter {n : Nat} {place l : Location} {part : String} {rest : List String} :
      part ∉ ["", ".", ".."] → (∀ target, d.at? (place ++ [part]) ≠ some (.link target)) →
      Takes d n (place ++ [part]) rest l → Takes d n place (part :: rest) l
  | turn {m n : Nat} {place mid l : Location} {part target : String} {rest : List String} :
      part ∉ ["", ".", ".."] → d.at? (place ++ [part]) = some (.link target) →
      Takes d m (startOf place target) (Path.pieces target) mid → Takes d n mid rest l →
      Takes d (m + n + 1) place (part :: rest) l

/-- A path is followed piece by piece. -/
theorem Takes.split (h : d.Takes n place (front ++ back) l) :
    ∃ first second mid, n = first + second ∧ d.Takes first place front mid ∧
      d.Takes second mid back l := by
  induction front generalizing n place with
  | nil => exact ⟨0, n, place, (Nat.zero_add n).symm, .arrived place, h⟩
  | cons part front ih =>
    cases h with
    | skip hpart hrest =>
      obtain ⟨first, second, mid, hn, hfirst, hsecond⟩ := ih hrest
      exact ⟨first, second, mid, hn, .skip hpart hfirst, hsecond⟩
    | leave hpart hrest =>
      obtain ⟨first, second, mid, hn, hfirst, hsecond⟩ := ih hrest
      exact ⟨first, second, mid, hn, .leave hpart hfirst, hsecond⟩
    | enter hpart hlink hrest =>
      obtain ⟨first, second, mid, hn, hfirst, hsecond⟩ := ih hrest
      exact ⟨first, second, mid, hn, .enter hpart hlink hfirst, hsecond⟩
    | @turn m k _ _ _ _ _ _ hpart hlink htarget hrest =>
      obtain ⟨first, second, mid, rfl, hfirst, hsecond⟩ := ih hrest
      exact ⟨m + first + 1, second, mid, by omega, .turn hpart hlink htarget hfirst, hsecond⟩

/-- Empty parts and single dots make no difference. -/
theorem takes_filter_iff {keep : String → Bool}
    (hkeep : ∀ part, keep part = false → part = "" ∨ part = ".") :
    d.Takes n place (parts.filter keep) l ↔ d.Takes n place parts l := by
  induction parts generalizing n place with
  | nil => exact Iff.rfl
  | cons part parts ih =>
    cases hpart : keep part with
    | false =>
      rw [List.filter_cons_of_neg (by simp [hpart]), ih]
      refine ⟨.skip (hkeep part hpart), fun h ↦ ?_⟩
      cases h with
      | skip _ h => exact h
      | leave hdots _ =>
        subst hdots
        exact absurd (hkeep _ hpart) (by decide)
      | enter hname _ _ | turn hname _ _ _ =>
        refine absurd ?_ hname
        rcases hkeep part hpart with rfl | rfl <;> simp
    | true =>
      rw [List.filter_cons_of_pos hpart]
      constructor
      · intro h
        cases h with
        | skip hpart h => exact .skip hpart (ih.1 h)
        | leave hpart h => exact .leave hpart (ih.1 h)
        | enter hpart hlink h => exact .enter hpart hlink (ih.1 h)
        | turn hpart hlink htarget h => exact .turn hpart hlink htarget (ih.1 h)
      · intro h
        cases h with
        | skip hpart h => exact .skip hpart (ih.2 h)
        | leave hpart h => exact .leave hpart (ih.2 h)
        | enter hpart hlink h => exact .enter hpart hlink (ih.2 h)
        | turn hpart hlink htarget h => exact .turn hpart hlink htarget (ih.2 h)

/-- A path takes as many links by its parts as by its steps. -/
theorem takes_stepsOf_iff {s : String} :
    d.Takes n place (stepsOf s) l ↔ d.Takes n place (Path.ofText s).parts l := by
  rw [← filter_stepsOf]
  exact (takes_filter_iff fun part h ↦ .inr (by simpa using h)).symm

theorem takes_pieces_iff {s : String} :
    d.Takes n place (Path.pieces s) l ↔ d.Takes n place (Path.ofText s).parts l := by
  refine (takes_filter_iff fun part h ↦ ?_).symm
  by_cases hempty : part = ""
  · exact .inl hempty
  · exact .inr (by simpa [hempty] using h)

/-- Where a path leads it takes some number of links. -/
theorem exists_takes (hsound : d.root.Sound) (h : d.Leads links place parts l) :
    ∃ n, d.Takes n place parts l := by
  induction h with
  | arrived links place => exact ⟨0, .arrived place⟩
  | @step links links' place place' l entries part parts rest hdir hstep _ ih =>
    obtain ⟨n, hn⟩ := ih
    have hname {thing : FileTree} (hlookup : entries.lookup part = some thing) :
        part ∉ ["", ".", ".."] := by
      have hsound' : entries.Sound := hsound.at? hdir
      obtain ⟨⟨hdot, hdots, -⟩, hempty, -⟩ := hsound'.plain _ (hsound'.lookup_eq_iff.1 hlookup)
      simp [hdot, hdots, hempty]
    have hat : d.at? (place ++ [part]) = entries.lookup part := Entries.at?_concat hdir part
    cases hstep with
    | stay hpart => exact ⟨n, .skip (.inr hpart) hn⟩
    | leave hpart => exact ⟨n, .leave hpart hn⟩
    | enter _ hlookup hlink =>
      refine ⟨n, .enter (hname hlookup) (fun target htarget ↦ ?_) hn⟩
      rw [hat, hlookup] at htarget
      exact hlink target (Option.some.inj htarget)
    | turn _ hlookup _ =>
      obtain ⟨first, second, mid, -, hfirst, hsecond⟩ := hn.split
      exact ⟨first + second + 1, .turn (hname hlookup) (hat.trans hlookup)
        (takes_pieces_iff.2 (takes_stepsOf_iff.1 hfirst)) hsecond⟩

/-- **A path takes one number of links and leads to one place.** -/
theorem Takes.unique (h : d.Takes n place parts l) (h' : d.Takes m place parts l') :
    n = m ∧ l = l' := by
  induction h generalizing m l' with
  | arrived place =>
    cases h'
    exact ⟨rfl, rfl⟩
  | skip hpart _ ih =>
    cases h' with
    | skip _ h' => exact ih h'
    | leave hdots => exact absurd (hdots ▸ hpart) (by decide)
    | enter hname | turn hname => exact absurd (by rcases hpart with rfl | rfl <;> simp) hname
  | leave hpart _ ih =>
    cases h' with
    | leave _ h' => exact ih h'
    | skip hdot => exact absurd (hpart ▸ hdot) (by decide)
    | enter hname | turn hname => exact absurd (by rw [hpart]; simp) hname
  | enter hname hlink _ ih =>
    cases h' with
    | enter _ _ h' => exact ih h'
    | skip hpart => exact absurd (by rcases hpart with rfl | rfl <;> simp) hname
    | leave hpart => exact absurd (by rw [hpart]; simp) hname
    | turn _ htarget => exact absurd htarget (hlink _)
  | turn hname htarget _ _ ihtarget ihrest =>
    cases h' with
    | turn _ htarget' h h' =>
      rw [htarget] at htarget'
      cases htarget'
      obtain ⟨rfl, rfl⟩ := ihtarget h
      obtain ⟨rfl, rfl⟩ := ihrest h'
      exact ⟨rfl, rfl⟩
    | skip hpart => exact absurd (by rcases hpart with rfl | rfl <;> simp) hname
    | leave hpart => exact absurd (by rw [hpart]; simp) hname
    | enter _ hlink => exact absurd htarget (hlink _)

/-! ### The links of a disk -/

mutual

/-- The ways to the links that a thing is or holds. -/
def waysToLinks : FileTree → List Location
  | .file _ => []
  | .link _ => [[]]
  | .dir entries => linksBelow entries

/-- The ways to the links below a directory. -/
def linksBelow : List (String × FileTree) → List Location
  | [] => []
  | entry :: rest => linksOfNamed entry ++ linksBelow rest

/-- The ways to the links that an entry of a directory is or holds. -/
def linksOfNamed : String × FileTree → List Location
  | (name, thing) => (waysToLinks thing).map (name :: ·)

end

mutual

theorem length_waysToLinks : (thing : FileTree) → (waysToLinks thing).length = linksOf thing
  | .file _ | .link _ => by rw [waysToLinks, linksOf]; rfl
  | .dir entries => by rw [waysToLinks, linksOf, length_linksBelow entries]

theorem length_linksBelow : (entries : List (String × FileTree)) →
    (linksBelow entries).length = linkCount entries
  | [] => by rw [linksBelow, linkCount]; rfl
  | entry :: rest => by
    rw [linksBelow, linkCount, List.length_append, length_linksOfNamed entry, length_linksBelow rest]

theorem length_linksOfNamed : (entry : String × FileTree) →
    (linksOfNamed entry).length = linksOfEntry entry
  | (name, thing) => by rw [linksOfNamed, linksOfEntry, List.length_map, length_waysToLinks thing]

end

/-- The links of an entry are among those of its directory. -/
theorem mem_linksBelow {entries : Entries} {name : String} {thing : FileTree} {way : Location}
    (hlookup : entries.lookup name = some thing) (hway : way ∈ waysToLinks thing) :
    name :: way ∈ linksBelow entries := by
  induction entries with
  | nil => cases hlookup
  | cons entry entries ih =>
    obtain ⟨first, other⟩ := entry
    rw [linksBelow, List.mem_append]
    rw [List.lookup_cons] at hlookup
    split at hlookup
    · rename_i heq
      cases hlookup
      obtain rfl : name = first := by simpa using heq
      exact .inl (List.mem_map_of_mem hway)
    · exact .inr (ih hlookup)

theorem mem_linksBelow_of_at? {entries : Entries} {way : Location}
    (h : entries.at? way = some (.link target)) : way ∈ linksBelow entries := by
  induction way generalizing entries with
  | nil => cases h
  | cons name way ih =>
    rcases Entries.at?_cons_eq_some_iff.1 h with ⟨inner, hname, hrest⟩ | ⟨rfl, hname⟩
    · exact mem_linksBelow hname (by rw [waysToLinks]; exact ih hrest)
    · exact mem_linksBelow hname (by rw [waysToLinks]; exact List.mem_singleton_self [])

/-- Distinct places of links are no more than the links that are counted. -/
theorem length_le_linkCount {places : List Location} (hnodup : places.Nodup)
    (h : ∀ place ∈ places, ∃ target, d.at? place = some (.link target)) :
    places.length ≤ linkCount d.root := by
  rw [← length_linksBelow]
  refine (List.subperm_of_subset hnodup fun place hplace ↦ ?_).length_le
  obtain ⟨target, htarget⟩ := h place hplace
  exact mem_linksBelow_of_at? htarget

/-! ### Following links -/

/-- Whether the path of the link at a place takes a number of links. -/
def Costs (d : Disk) (place : Location) (n : Nat) : Prop :=
  ∃ front part target l, place = front ++ [part] ∧ d.at? place = some (.link target) ∧
    d.Takes n (startOf front target) (Path.pieces target) l

theorem Costs.unique (h : d.Costs place n) (h' : d.Costs place m) : n = m := by
  obtain ⟨front, part, target, l, rfl, htarget, htakes⟩ := h
  obtain ⟨front', part', target', l', heq, htarget', htakes'⟩ := h'
  obtain ⟨rfl, -⟩ := List.append_inj' heq rfl
  rw [htarget] at htarget'
  cases htarget'
  exact (htakes.unique htakes').1

/-- What is known while links are followed, of the paths of which some more links are still to come:
the links are distinct, each of their paths takes at least so many, and all other links of the disk may
still be followed. -/
structure IsFollowing (d : Disk) (more depth : Nat) (followed : List Location) : Prop where
  distinct : followed.Nodup
  costs : ∀ place ∈ followed, ∃ n, d.Costs place n ∧ more ≤ n
  room : linkCount d.root ≤ depth + followed.length

namespace IsFollowing

variable {more fewer depth : Nat} {followed : List Location}

theorem mono (h : d.IsFollowing more depth followed) (hle : fewer ≤ more) :
    d.IsFollowing fewer depth followed where
  distinct := h.distinct
  costs place hplace := by
    obtain ⟨n, hcosts, hn⟩ := h.costs place hplace
    exact ⟨n, hcosts, hle.trans hn⟩
  room := h.room

/-- A link is not met while it is being followed. -/
theorem not_mem (h : d.IsFollowing more depth followed) (hcosts : d.Costs place n) (hlt : n < more) :
    place ∉ followed := by
  intro hplace
  obtain ⟨m, hm, hle⟩ := h.costs place hplace
  obtain rfl := hcosts.unique hm
  omega

/-- One more link can be followed. -/
theorem cons (h : d.IsFollowing more depth followed) (hcosts : d.Costs place n) (hlt : n < more) :
    ∃ depth', depth = depth' + 1 ∧ d.IsFollowing n depth' (place :: followed) := by
  have hdistinct : (place :: followed).Nodup :=
    List.nodup_cons.2 ⟨h.not_mem hcosts hlt, h.distinct⟩
  have hall : ∀ k ∈ place :: followed, ∃ m, d.Costs k m ∧ n ≤ m :=
    List.forall_mem_cons.2 ⟨⟨n, hcosts, Nat.le_refl n⟩, (h.mono hlt.le).costs⟩
  have hlength : (place :: followed).length ≤ linkCount d.root := by
    refine length_le_linkCount hdistinct fun k hk ↦ ?_
    obtain ⟨m, ⟨-, -, target, -, -, htarget, -⟩, -⟩ := hall k hk
    exact ⟨target, htarget⟩
  have hroom := h.room
  rw [List.length_cons] at hlength
  refine ⟨depth - 1, by omega, hdistinct, hall, ?_⟩
  rw [List.length_cons]
  omega

end IsFollowing

/-- **No link keeps a path from being followed that takes some number of links.** -/
theorem realPath_of_takes (h : d.Takes n place parts l) {depth : Nat} {followed : List Location}
    (hfollowing : d.IsFollowing n depth followed) :
    d.realPath depth followed place parts = (true, l) := by
  induction h generalizing depth followed with
  | arrived place => rw [realPath]
  | skip hpart _ ih => rw [realPath, if_pos hpart, ih hfollowing]
  | leave hpart _ ih =>
    rw [realPath, if_neg (by rw [hpart]; decide), if_pos hpart, ih hfollowing]
  | @enter n place l part rest hname hlink _ ih =>
    obtain ⟨hempty, hdot, hdots⟩ : part ≠ "" ∧ part ≠ "." ∧ part ≠ ".." := by simpa using hname
    rw [realPath, if_neg (not_or.2 ⟨hempty, hdot⟩), if_neg hdots]
    cases hat : d.at? (place ++ [part]) with
    | none => simp only [hat, ih hfollowing]
    | some thing =>
      cases thing with
      | link target => exact absurd hat (hlink target)
      | file | dir => simp only [hat, ih hfollowing]
  | @turn m n place mid l part target rest hname htarget htakes _ ihtarget ihrest =>
    obtain ⟨hempty, hdot, hdots⟩ : part ≠ "" ∧ part ≠ "." ∧ part ≠ ".." := by simpa using hname
    have hcosts : d.Costs (place ++ [part]) m := ⟨place, part, target, mid, rfl, htarget, htakes⟩
    have hlt : m < m + n + 1 := by omega
    have hnot : followed.contains (place ++ [part]) = false := by
      simpa using hfollowing.not_mem hcosts hlt
    obtain ⟨depth, rfl, hnext⟩ := hfollowing.cons hcosts hlt
    rw [realPath, if_neg (not_or.2 ⟨hempty, hdot⟩), if_neg hdots]
    simp only [htarget, hnot, Bool.false_eq_true, if_false, ihtarget hnext]
    exact ihrest (hfollowing.mono (by omega))

/-- **What is found at a path is at the real location of the path.** -/
theorem resolve?_of_find? (hsound : d.root.Sound) {path : String} {thing : FileTree}
    (h : d.find? (Path.ofText path).text = .ok thing) (hlink : ∀ target, thing ≠ .link target) :
    ∃ l, d.resolve? (.ofText path) = .ok l ∧ d.at? l = some thing := by
  obtain ⟨-, -, l, hleads, hat⟩ := find?_eq_ok_iff.1 h
  obtain ⟨n, htakes⟩ := exists_takes hsound hleads
  rw [takes_stepsOf_iff, Path.parts_text, Path.startOf_text] at htakes
  have hreal := realPath_of_takes htakes ⟨List.nodup_nil, nofun, Nat.le_refl (linkCount d.root)⟩
  have hfollow : Location.follow [] l = l :=
    (Location.follow_eq_append (hsound.plain_way hat) []).trans (List.nil_append l)
  refine ⟨l, ?_, hat⟩
  rw [resolve?]
  simp only [hreal, hfollow]
  split
  · rename_i hlocate
    -- The real location is short enough to be looked at, or that is what is said.
    by_cases hsize : l.text.utf8ByteSize < maxPathSize
    · have hfind := find?_location hsound hat hlink hsize
      rw [find?, hlocate] at hfind
      cases hfind
    · rw [locate, if_pos (Nat.not_lt.1 hsize)] at hlocate
      split at hlocate <;> cases hlocate
  · rfl

end Disk

end CommentScope
