import CommentScope.Proofs.DiskPaths
import CommentScope.Proofs.Outcome
import CommentScope.Proofs.Utf8
import CommentScope.Sources.Solution

/-!
# Solutions that are written and read

A solution is written line by line, each line an entry or some other text, with any line ends. Reading
it gives the paths of the entries that are projects (`Solution.projects?_written`).

The name of an entry may end anywhere as far as its pattern goes, and so may its path. That both end
where they were written to end rests on the quotes: there is none in a name or a path, so what stands
before and behind a quote is known.
-/

namespace CommentScope

namespace Text

variable {sep a : Char} {cs rest front back : List Char} {pieces : List (List Char)}

theorem mem_joinWith {c : Char} (h : c ∈ joinWith sep pieces) :
    c = sep ∨ ∃ piece ∈ pieces, c ∈ piece := by
  induction pieces with
  | nil => exact absurd h List.not_mem_nil
  | cons piece pieces ih =>
    cases pieces with
    | nil => exact .inr ⟨piece, List.mem_singleton_self _, h⟩
    | cons next pieces =>
      rw [joinWith_cons_cons, List.mem_append, List.mem_cons] at h
      rcases h with h | h | h
      · exact .inr ⟨piece, List.mem_cons_self, h⟩
      · exact .inl h
      · obtain hsep | ⟨p, hp, hc⟩ := ih h
        · exact .inl hsep
        · exact .inr ⟨p, List.mem_cons_of_mem _ hp, hc⟩

/-- What stands before the first of a character is known. -/
theorem eq_of_append_cons (hfront : a ∉ front) (hcs : a ∉ cs)
    (h : front ++ a :: back = cs ++ a :: rest) : front = cs ∧ back = rest := by
  induction front generalizing cs with
  | nil =>
    cases cs with
    | nil => exact ⟨rfl, (List.cons.inj h).2⟩
    | cons c cs => exact absurd (List.mem_cons.2 (.inl (List.cons.inj h).1)) hcs
  | cons f front ih =>
    cases cs with
    | nil => exact absurd (List.mem_cons.2 (.inl (List.cons.inj h).1.symm)) hfront
    | cons c cs =>
      obtain ⟨rfl, htail⟩ := List.cons.inj h
      obtain ⟨rfl, hback⟩ := ih (fun hf ↦ hfront (List.mem_cons_of_mem _ hf))
        (fun hc ↦ hcs (List.mem_cons_of_mem _ hc)) htail
      exact ⟨rfl, hback⟩

/-- What has a character in it occurs around the first of it or behind that. -/
theorem infix_append_cons (hfront : a ∉ front) (hcs : a ∉ cs)
    (h : front ++ a :: back <:+: cs ++ a :: rest) :
    front <:+ cs ∧ back <+: rest ∨ front ++ a :: back <:+: rest := by
  induction cs with
  | nil =>
    rcases List.infix_cons_iff.1 h with ⟨more, h⟩ | h
    · rw [List.append_assoc] at h
      obtain ⟨rfl, hback⟩ := eq_of_append_cons hfront hcs h
      exact .inl ⟨List.suffix_rfl, more, hback⟩
    · exact .inr h
  | cons c cs ih =>
    rcases List.infix_cons_iff.1 h with ⟨more, h⟩ | h
    · rw [List.append_assoc] at h
      obtain ⟨rfl, hback⟩ := eq_of_append_cons hfront hcs h
      exact .inl ⟨List.suffix_rfl, more, hback⟩
    · rcases ih (fun hc ↦ hcs (List.mem_cons_of_mem _ hc)) h with ⟨hsuffix, hprefix⟩ | h
      · exact .inl ⟨hsuffix.trans (List.suffix_cons _ _), hprefix⟩
      · exact .inr h

/-- A start of a text that does not have the character in it by which pieces are joined is one of the
first piece. -/
theorem prefix_of_prefix_joinWith {piece : List Char} (hback : a ∉ back)
    (h : back <+: joinWith a (piece :: pieces)) : back <+: piece := by
  cases pieces with
  | nil => exact h
  | cons next pieces =>
    rw [joinWith_cons_cons] at h
    obtain ⟨more, hmore⟩ := h
    rcases List.append_eq_append_iff.1 hmore with ⟨as, hpiece, -⟩ | ⟨bs, hpiece, hbs⟩
    · exact ⟨as, hpiece.symm⟩
    · cases bs with
      | nil => exact ⟨[], by rw [hpiece, List.append_nil, List.append_nil]⟩
      | cons b bs =>
        obtain ⟨rfl, -⟩ := List.cons.inj hbs
        exact absurd (hpiece ▸ List.mem_append_right _ List.mem_cons_self) hback

/-- What has the character in it by which pieces are joined does not occur in the text if it does not
fit any two neighbours. -/
theorem not_infix_joinWith (hfront : a ∉ front) (hback : a ∉ back)
    (hpieces : ∀ piece ∈ pieces, a ∉ piece)
    (h : pieces.IsChain fun piece next ↦ ¬ (front <:+ piece ∧ back <+: next)) :
    ¬ front ++ a :: back <:+: joinWith a pieces := by
  have hmem : a ∈ front ++ a :: back := List.mem_append_right _ List.mem_cons_self
  induction pieces with
  | nil => exact fun hoccurs ↦ absurd (hoccurs.subset hmem) List.not_mem_nil
  | cons piece pieces ih =>
    obtain ⟨hpiece, hrest⟩ := List.forall_mem_cons.1 hpieces
    cases pieces with
    | nil => exact fun hoccurs ↦ hpiece (hoccurs.subset hmem)
    | cons next pieces =>
      obtain ⟨hnot, hchain⟩ := List.isChain_cons_cons.1 h
      rw [joinWith_cons_cons]
      intro hoccurs
      rcases infix_append_cons hfront hpiece hoccurs with ⟨hsuffix, hprefix⟩ | hoccurs
      · exact hnot ⟨hsuffix, prefix_of_prefix_joinWith hback hprefix⟩
      · exact ih hrest hchain hoccurs

end Text

namespace Text.Newline

variable {c : Char} {cs : List Char}

theorem unify_cons (h : c ≠ '\r') (cs : List Char) : unify (c :: cs) = c :: unify cs := by
  rw [unify]
  · rw [if_neg h]
  · exact fun _ hc _ ↦ h hc

/-- Text without carriage returns is kept in front of other text. -/
theorem unify_append (h : '\r' ∉ cs) (rest : List Char) : unify (cs ++ rest) = cs ++ unify rest := by
  induction cs with
  | nil => rfl
  | cons c cs ih =>
    obtain ⟨hc, hcs⟩ := not_or.1 (List.mem_cons.not.1 h)
    rw [List.cons_append, unify_cons (Ne.symm hc), ih hcs, List.cons_append]

end Text.Newline

namespace Solution

/-! ### Writing -/

/-- The groups of an identifier. -/
def groupsOf (s : String) : List (List Char) := Text.splitOn '-' s.toList

/-- Whether a text is an identifier: five groups of word characters with hyphens between them. -/
def IsId (s : String) : Prop :=
  (groupsOf s).map List.length = [8, 4, 4, 4, 12] ∧
    ∀ group ∈ groupsOf s, ∀ c ∈ group, Text.isWordChar c = true

-- What holds of all characters of a text is decided along the text, not over all characters there are.
instance (s : String) : Decidable (IsId s) :=
  letI (group : List Char) : Decidable (∀ c ∈ group, Text.isWordChar c = true) :=
    List.decidableBAll _ group
  inferInstanceAs (Decidable (_ ∧ _))

/-- An entry of a solution. -/
structure Entry where
  kind : String
  name : String
  path : String
  id : String
  deriving DecidableEq

namespace Entry

/-- How an entry is written. -/
def text (e : Entry) : String :=
  "Project(\"\x7b" ++ e.kind ++ "\x7d\") = \"" ++ e.name ++ "\", \"" ++ e.path ++ "\", \"\x7b" ++ e.id ++
    "\x7d\""

/-- Whether an entry can be written: its identifiers are some, and its name and its path have neither
quotes nor line ends. -/
structure WellFormed (e : Entry) : Prop where
  kind : IsId e.kind
  id : IsId e.id
  name : ∀ c ∈ e.name.toList, c ∉ ['"', '\r', '\n']
  path : ∀ c ∈ e.path.toList, c ∉ ['"', '\r', '\n']

instance (e : Entry) : Decidable e.WellFormed :=
  letI (s : String) : Decidable (∀ c ∈ s.toList, c ∉ ['"', '\r', '\n']) := List.decidableBAll _ s.toList
  decidable_of_iff (IsId e.kind ∧ IsId e.id ∧ (∀ c ∈ e.name.toList, c ∉ ['"', '\r', '\n']) ∧
      ∀ c ∈ e.path.toList, c ∉ ['"', '\r', '\n'])
    ⟨fun ⟨kind, id, name, path⟩ ↦ ⟨kind, id, name, path⟩,
      fun h ↦ ⟨h.kind, h.id, h.name, h.path⟩⟩

/-- Whether an entry is a project. -/
def isProject (e : Entry) : Bool := projectSuffix.toList.isSuffixOf e.path.toList

/-- Where the project of an entry is said to be, in a solution that lies in a directory. -/
def pathFrom (e : Entry) (directory : Path) : Path :=
  directory.join (.ofText (Path.withSlashes e.path))

end Entry

/-- What every entry starts with. -/
def startMark : String := "Project(\"\x7b"

/-- A line of a solution. -/
inductive Line where
  | entry (e : Entry)
  | other (text : String)

namespace Line

/-- How a line is written. -/
def text : Line → String
  | .entry e => e.text
  | .other s => s

/-- The entry on a line. -/
def declared? : Line → Option Entry
  | .entry e => some e
  | .other _ => none

/-- Whether a line can be written: its entry can, or it has neither line ends nor the start of an
entry in it. -/
def WellFormed : Line → Prop
  | .entry e => e.WellFormed
  | .other s => (∀ c ∈ s.toList, c ∉ ['\r', '\n']) ∧ ¬ startMark.toList <:+: s.toList

instance : (l : Line) → Decidable l.WellFormed
  | .entry e => inferInstanceAs (Decidable e.WellFormed)
  | .other s =>
    letI : Decidable (∀ c ∈ s.toList, c ∉ ['\r', '\n']) := List.decidableBAll _ s.toList
    inferInstanceAs (Decidable (_ ∧ _))

end Line

/-- What ends a line. -/
inductive LineEnd where
  | lineFeed
  | carriageReturn
  | both

/-- How the end of a line is written. -/
def LineEnd.text : LineEnd → String
  | .lineFeed => "\n"
  | .carriageReturn => "\r"
  | .both => "\r\n"

/-- How a solution is written. Nothing ends the last line, which may be empty. -/
def written (lines : List (Line × LineEnd)) (last : Line) : String :=
  match lines with
  | [] => last.text
  | (line, stop) :: lines => line.text ++ stop.text ++ written lines last

/-- The projects among the entries of a solution. -/
def projectsOf (lines : List (Line × LineEnd)) (last : Line) : List Entry :=
  ((lines.map Prod.fst ++ [last]).filterMap Line.declared?).filter Entry.isProject

/-! ### Reading pieces of entries -/

section

variable {cs rest tail word : List Char} {s : String}

theorem behind?_eq_some_iff {start : String} :
    behind? start cs = some rest ↔ cs = start.toList ++ rest := by
  rw [behind?, Option.ite_none_right_eq_some, List.isPrefixOf_iff_prefix]
  constructor
  · rintro ⟨⟨behind, rfl⟩, h⟩
    rw [← String.length_toList, List.drop_left] at h
    rw [Option.some.inj h]
  · rintro rfl
    exact ⟨List.prefix_append _ _, by rw [← String.length_toList, List.drop_left]⟩

theorem behind?_append (start : String) (rest : List Char) :
    behind? start (start.toList ++ rest) = some rest := behind?_eq_some_iff.2 rfl

theorem behindWord?_append (h : ∀ c ∈ word, Text.isWordChar c = true) (rest : List Char) :
    behindWord? word.length (word ++ rest) = some rest := by
  induction word with
  | nil => rfl
  | cons c word ih =>
    obtain ⟨hc, hword⟩ := List.forall_mem_cons.1 h
    rw [List.length_cons, List.cons_append, behindWord?, if_pos hc, ih hword]

theorem behindGroups?_append {groups : List (List Char)} (hne : groups ≠ [])
    (h : ∀ group ∈ groups, ∀ c ∈ group, Text.isWordChar c = true) (rest : List Char) :
    behindGroups? (groups.map List.length) (Text.joinWith '-' groups ++ rest) = some rest := by
  induction groups with
  | nil => exact absurd rfl hne
  | cons group groups ih =>
    obtain ⟨hgroup, hgroups⟩ := List.forall_mem_cons.1 h
    cases groups with
    | nil => exact behindWord?_append hgroup rest
    | cons next groups =>
      have hnext := ih (List.cons_ne_nil _ _) hgroups
      have hhyphen : behind? "-" ('-' :: (Text.joinWith '-' (next :: groups) ++ rest)) =
          some (Text.joinWith '-' (next :: groups) ++ rest) :=
        behind?_eq_some_iff.2 rfl
      rw [Text.joinWith_cons_cons, List.append_assoc, List.map_cons, List.map_cons, behindGroups?,
        behindWord?_append hgroup]
      · exact (congrArg (· >>= behindGroups? _) hhyphen).trans hnext
      · exact List.cons_ne_nil _ _

/-- Identifiers are read to their end. -/
theorem behindId?_append (h : IsId s) (rest : List Char) :
    behindId? (s.toList ++ rest) = some rest := by
  have hlengths : (Text.splitOn '-' s.toList).map List.length = [8, 4, 4, 4, 12] := h.1
  have hread := behindGroups?_append (Text.splitOn_ne_nil '-' s.toList) h.2 rest
  rwa [Text.joinWith_splitOn, hlengths] at hread

/-- Only hyphens and word characters are in an identifier. -/
theorem IsId.not_mem (h : IsId s) {c : Char} (hhyphen : c ≠ '-')
    (hword : Text.isWordChar c = false) : c ∉ s.toList := by
  intro hc
  rw [← Text.joinWith_splitOn '-' s.toList] at hc
  rcases Text.mem_joinWith hc with rfl | ⟨group, hgroup, hc⟩
  · exact hhyphen rfl
  · exact Bool.false_ne_true (hword.symm.trans (h.2 group hgroup c hc))

end

/-! ### Reading entries -/

/-- How an entry goes on behind its path. -/
def Entry.ending (e : Entry) : List Char :=
  "\", \"\x7b".toList ++ (e.id.toList ++ "\x7d\"".toList)

/-- How an entry goes on behind its first identifier. -/
def Entry.behindKind (e : Entry) : List Char :=
  "\x7d\") = \"".toList ++ (e.name.toList ++ ("\", \"".toList ++ (e.path.toList ++ e.ending)))

namespace Entry

variable {e : Entry} {cs tail : List Char}

theorem toList_text (e : Entry) :
    e.text.toList = startMark.toList ++ (e.kind.toList ++ e.behindKind) := by
  unfold text behindKind ending startMark
  iterate 8 rw [String.toList_append]
  simp only [List.append_assoc]

theorem WellFormed.behindEnd?_ending (h : e.WellFormed) : behindEnd? e.ending = some [] := by
  unfold ending
  rw [behindEnd?, behind?_append, Option.bind_eq_bind, Option.bind_some, behindId?_append h.id,
    Option.bind_some]
  exact behind?_append "\x7d\"" []

theorem WellFormed.behindStart?_text (h : e.WellFormed) : behindStart? e.text.toList =
    some (e.name.toList ++ ("\", \"".toList ++ (e.path.toList ++ e.ending))) := by
  rw [behindStart?, toList_text, startMark, behind?_append, Option.bind_eq_bind, Option.bind_some,
    behindId?_append h.kind, Option.bind_some]
  exact behind?_append _ _

/-- Behind its path an entry goes on with a quote. -/
theorem exists_ending_eq (e : Entry) : ∃ behind, e.ending = '"' :: behind :=
  ⟨", \"\x7b".toList ++ (e.id.toList ++ "\x7d\"".toList), rfl⟩

theorem WellFormed.quote_not_mem_path (h : e.WellFormed) : '"' ∉ e.path.toList :=
  fun hc ↦ h.path _ hc List.mem_cons_self

theorem WellFormed.quote_not_mem_name (h : e.WellFormed) : '"' ∉ e.name.toList :=
  fun hc ↦ h.name _ hc List.mem_cons_self

/-- No dot stands behind the path of an entry. -/
theorem WellFormed.dot_not_mem_ending (h : e.WellFormed) : '.' ∉ e.ending := by
  have hid : '.' ∉ e.id.toList := h.id.not_mem (by decide) (by decide +kernel)
  unfold ending
  rw [List.mem_append, List.mem_append, not_or, not_or]
  exact ⟨by decide, hid, by decide⟩

end Entry

section

variable {e : Entry} {cs word : List Char} {found : List Char × List Char}

/-- What follows the suffix of a project, if a text starts with the end of an entry. -/
def behindSuffix? (cs : List Char) : Option (List Char) :=
  behind? projectSuffix cs >>= behindEnd?

/-- The end of an entry starts with a quote. -/
theorem exists_eq_of_behindEnd? {rest : List Char} (h : behindEnd? cs = some rest) :
    ∃ behind, cs = '"' :: behind := by
  obtain ⟨behind, hcs, -⟩ := Option.bind_eq_some_iff.1 h
  exact ⟨_, behind?_eq_some_iff.1 hcs⟩

/-- What stands in front of the end of an entry is the suffix of a project, or there is no such end
behind the suffix. -/
theorem behindSuffix?_append (h : e.WellFormed) (hword : '"' ∉ word) :
    behindSuffix? (word ++ e.ending) = if word = projectSuffix.toList then some [] else none := by
  split
  · rename_i hsuffix
    rw [hsuffix, behindSuffix?, behind?_append]
    exact h.behindEnd?_ending
  · rename_i hsuffix
    rw [Option.eq_none_iff_forall_ne_some]
    intro rest hrest
    obtain ⟨behind, hbehind, hend⟩ := Option.bind_eq_some_iff.1 hrest
    obtain ⟨behind, rfl⟩ := exists_eq_of_behindEnd? hend
    obtain ⟨ending, hending⟩ := e.exists_ending_eq
    have hsplit := behind?_eq_some_iff.1 hbehind
    rw [hending] at hsplit
    exact hsuffix (Text.eq_of_append_cons hword (by decide) hsplit).1

theorem path?_cons (c : Char) (cs : List Char) : path? (c :: cs) =
    match behindSuffix? (c :: cs) with
    | some rest => some (projectSuffix.toList, rest)
    | none => (path? cs).map fun (path, rest) ↦ (c :: path, rest) := rfl

/-- Without a dot there is no path. -/
theorem path?_of_not_mem (h : '.' ∉ cs) : path? cs = none := by
  induction cs with
  | nil => rfl
  | cons c cs ih =>
    obtain ⟨hc, hcs⟩ := not_or.1 (List.mem_cons.not.1 h)
    have hnone : behindSuffix? (c :: cs) = none := by
      rw [Option.eq_none_iff_forall_ne_some]
      intro rest hrest
      obtain ⟨behind, hbehind, -⟩ := Option.bind_eq_some_iff.1 hrest
      exact hc (List.cons.inj (behind?_eq_some_iff.1 hbehind)).1.symm
    rw [path?_cons, hnone, ih hcs]
    rfl

/-- **The path of an entry is read to its end**, if it is that of a project, and else not at all. -/
theorem path?_append (h : e.WellFormed) (hword : '"' ∉ word) : path? (word ++ e.ending) =
    if projectSuffix.toList <:+ word then some (word, []) else none := by
  induction word with
  | nil => exact path?_of_not_mem h.dot_not_mem_ending
  | cons c word ih =>
    have hrest : '"' ∉ word := fun hc ↦ hword (List.mem_cons_of_mem _ hc)
    have hsuffix := behindSuffix?_append h hword
    rw [List.cons_append] at hsuffix ⊢
    rw [path?_cons, hsuffix, ih hrest]
    simp only [List.suffix_cons_iff]
    by_cases hall : c :: word = projectSuffix.toList
    · simp only [hall, if_true, true_or]
    · have hall' : ¬ projectSuffix.toList = c :: word := fun heq ↦ hall heq.symm
      simp only [hall, hall', if_false, false_or]
      split <;> rfl

/-- What stands between the name and the path of an entry. -/
def separator : String := "\", \""

theorem pathBehindName?_cons (c : Char) (cs : List Char) : pathBehindName? (c :: cs) =
    match behind? separator (c :: cs) >>= path? with
    | some found => some found
    | none => pathBehindName? cs := rfl

/-- A name ends at a quote. -/
theorem pathBehindName?_append (hword : '"' ∉ word) (cs : List Char) :
    pathBehindName? (word ++ cs) = pathBehindName? cs := by
  induction word with
  | nil => rfl
  | cons c word ih =>
    obtain ⟨hc, hrest⟩ := not_or.1 (List.mem_cons.not.1 hword)
    have hnone : behind? separator (c :: (word ++ cs)) = none := by
      rw [Option.eq_none_iff_forall_ne_some]
      exact fun rest h ↦ hc (List.cons.inj (behind?_eq_some_iff.1 h)).1.symm
    rw [List.cons_append, pathBehindName?_cons, hnone]
    exact ih hrest

/-- There is no path behind a name if there is none behind any separator. -/
theorem pathBehindName?_eq_none
    (h : ∀ rest, separator.toList ++ rest <:+ cs → path? rest = none) :
    pathBehindName? cs = none := by
  induction cs with
  | nil => rfl
  | cons c cs ih =>
    have hnone : (behind? separator (c :: cs) >>= path?) = none := by
      rw [Option.bind_eq_bind, Option.bind_eq_none_iff]
      exact fun rest hrest ↦ h rest (behind?_eq_some_iff.1 hrest ▸ List.suffix_rfl)
    rw [pathBehindName?_cons, hnone]
    exact ih fun rest hrest ↦ h rest (hrest.trans (List.suffix_cons _ _))

/-- No path is found anywhere in the path of an entry that is no project, or behind it. -/
theorem path?_of_suffix (h : e.WellFormed) (hproject : e.isProject = false)
    (hcs : cs <:+ e.path.toList ++ e.ending) : path? cs = none := by
  obtain ⟨front, hfront⟩ := hcs
  rcases List.append_eq_append_iff.1 hfront with ⟨word, hword, rfl⟩ | ⟨front, -, hending⟩
  · have hword : word <:+ e.path.toList := ⟨front, hword.symm⟩
    rw [path?_append h fun hquote ↦ h.quote_not_mem_path (hword.subset hquote)]
    refine if_neg fun hsuffix ↦ ?_
    rw [Entry.isProject, List.isSuffixOf_iff_suffix.2 (hsuffix.trans hword)] at hproject
    cases hproject
  · have hcs : cs <:+ e.ending := ⟨front, hending.symm⟩
    exact path?_of_not_mem fun hdot ↦ h.dot_not_mem_ending (hcs.subset hdot)

/-- The name of an entry is read to its end, and so is its path if it is that of a project. -/
theorem pathBehindName?_eq (h : e.WellFormed) :
    pathBehindName? (e.name.toList ++ (separator.toList ++ (e.path.toList ++ e.ending))) =
      if e.isProject then some (e.path.toList, []) else none := by
  rw [pathBehindName?_append h.quote_not_mem_name]
  cases hproject : e.isProject with
  | true =>
    have hfound : (behind? separator (separator.toList ++ (e.path.toList ++ e.ending)) >>= path?) =
        some (e.path.toList, []) := by
      rw [behind?_append, Option.bind_eq_bind, Option.bind_some, path?_append h h.quote_not_mem_path]
      exact if_pos (List.isSuffixOf_iff_suffix.1 hproject)
    obtain ⟨behind, hbehind⟩ : ∃ behind, separator.toList ++ (e.path.toList ++ e.ending) =
      '"' :: behind := ⟨_, rfl⟩
    rw [hbehind] at hfound ⊢
    rw [pathBehindName?_cons, hfound]
    rfl
  | false =>
    refine pathBehindName?_eq_none fun rest hrest ↦ path?_of_suffix h hproject ?_
    -- What follows a separator here begins no earlier than the path.
    have hlength := hrest.length_le
    rw [List.length_append, List.length_append] at hlength
    exact List.suffix_of_suffix_length_le ((List.suffix_append _ _).trans hrest)
      (List.suffix_append _ _) (by omega)

/-- **An entry is read as it was written**, if it is a project, and else not at all. -/
theorem entry?_text (h : e.WellFormed) :
    entry? e.text.toList = if e.isProject then some (e.path.toList, []) else none := by
  show behindStart? e.text.toList >>= pathBehindName? = _
  rw [h.behindStart?_text]
  exact pathBehindName?_eq h

end

/-! ### Reading lines -/

section

variable {e : Entry} {l : Line} {cs line : List Char}

/-- The pieces of an entry between its quotes, behind its first letter. -/
def Entry.pieces (e : Entry) : List (List Char) :=
  ["roject(".toList, '\x7b' :: (e.kind.toList ++ ['\x7d']), ") = ".toList, e.name.toList, ", ".toList,
    e.path.toList, ", ".toList, '\x7b' :: (e.id.toList ++ ['\x7d']), []]

theorem Entry.toList_text_eq_cons (e : Entry) :
    e.text.toList = 'P' :: Text.joinWith '"' e.pieces := by
  rw [toList_text]
  unfold behindKind ending startMark
  simp [pieces, Text.joinWith]

/-- An entry starts once. -/
theorem Entry.WellFormed.not_startMark (h : e.WellFormed) :
    ¬ startMark.toList <:+: Text.joinWith '"' e.pieces := by
  have hkind : '"' ∉ e.kind.toList := h.kind.not_mem (by decide) (by decide +kernel)
  have hid : '"' ∉ e.id.toList := h.id.not_mem (by decide) (by decide +kernel)
  have hmark : startMark.toList = "Project(".toList ++ '"' :: ['\x7b'] := rfl
  rw [hmark]
  refine Text.not_infix_joinWith (by decide) (by decide) ?_ ?_
  · simp [Entry.pieces, hkind, hid, h.quote_not_mem_name, h.quote_not_mem_path]
  · simp only [Entry.pieces, List.isChain_cons_cons]
    exact ⟨fun h ↦ absurd h.1 (by decide), fun h ↦ absurd h.2 (by decide),
      fun h ↦ absurd h.1 (by decide), fun h ↦ absurd h.2 (by decide),
      fun h ↦ absurd h.1 (by decide), fun h ↦ absurd h.2 (by decide),
      fun h ↦ absurd h.1 (by decide), fun h ↦ absurd h.2 (by decide), .singleton _⟩

theorem entry?_of_not_prefix (h : ¬ startMark.toList <+: cs) : entry? cs = none := by
  have hstart : behindStart? cs = none := by
    rw [Option.eq_none_iff_forall_ne_some]
    intro rest hrest
    obtain ⟨behind, hbehind, -⟩ := Option.bind_eq_some_iff.1 hrest
    exact h ⟨behind, (behind?_eq_some_iff.1 hbehind).symm⟩
  show behindStart? cs >>= pathBehindName? = none
  rw [hstart]
  rfl

/-- A line on which no entry starts names no project. -/
theorem pathsFrom_of_not_infix (h : ¬ startMark.toList <:+: cs) : pathsFrom 0 cs = [] := by
  induction cs with
  | nil => rfl
  | cons c cs ih =>
    rw [List.infix_cons_iff, not_or] at h
    simp only [pathsFrom, entry?_of_not_prefix h.1]
    exact ih h.2

theorem pathsFrom_length (cs : List Char) : pathsFrom cs.length cs = [] := by
  induction cs with
  | nil => rfl
  | cons c cs ih => exact ih

/-- **The line of an entry names its project**, if the entry is one, and nothing else. -/
theorem pathsFrom_text (h : e.WellFormed) :
    pathsFrom 0 e.text.toList = if e.isProject then [e.path] else [] := by
  have hread := entry?_text h
  rw [e.toList_text_eq_cons] at hread ⊢
  cases hproject : e.isProject with
  | true =>
    rw [hproject, if_pos rfl] at hread
    simp only [pathsFrom, hread, String.ofList_toList, List.length_nil, Nat.sub_zero,
      pathsFrom_length, if_true]
  | false =>
    rw [hproject, if_neg Bool.false_ne_true] at hread
    simp only [pathsFrom, hread, Bool.false_eq_true, if_false]
    exact pathsFrom_of_not_infix h.not_startMark

/-- What a line that is written names. -/
theorem pathsFrom_line (h : l.WellFormed) : pathsFrom 0 l.text.toList =
    ((l.declared?.toList).filter Entry.isProject).map Entry.path := by
  cases l with
  | entry e =>
    rw [Line.text, pathsFrom_text h]
    cases hproject : e.isProject <;> simp [Line.declared?, hproject]
  | other s => exact pathsFrom_of_not_infix h.2

/-- No line end is in a line that is written. -/
theorem Line.WellFormed.not_mem (h : l.WellFormed) {c : Char} (hc : c = '\r' ∨ c = '\n') :
    c ∉ l.text.toList := by
  cases l with
  | entry e =>
    have hword : Text.isWordChar c = false := by
      rcases hc with rfl | rfl <;> decide +kernel
    have hhyphen : c ≠ '-' := by
      rcases hc with rfl | rfl <;> decide
    have hkind := h.kind.not_mem hhyphen hword
    have hid := h.id.not_mem hhyphen hword
    have hname : c ∉ e.name.toList := fun hmem ↦ h.name c hmem (by
      rcases hc with rfl | rfl <;> decide)
    have hpath : c ∉ e.path.toList := fun hmem ↦ h.path c hmem (by
      rcases hc with rfl | rfl <;> decide)
    rw [Line.text, Entry.toList_text]
    unfold Entry.behindKind Entry.ending
    simp only [List.mem_append, not_or]
    refine ⟨?_, hkind, ?_, hname, ?_, hpath, ?_, hid, ?_⟩ <;> rcases hc with rfl | rfl <;> decide
  | other s =>
    refine fun hmem ↦ h.1 c hmem ?_
    rcases hc with rfl | rfl <;> decide

end

/-! ### Reading solutions -/

section

open Text.Newline

variable {line : List Char}

/-- The paths on a line come before those on the lines behind it. -/
theorem paths_append_cons (h : '\n' ∉ line) (text : List Char) :
    paths (line ++ '\n' :: text) = pathsFrom 0 line ++ paths text := by
  rw [paths, Text.splitOn_append_cons h, List.flatMap_cons, paths]

/-- **Every line end ends a line.** -/
theorem paths_unify_append (hreturn : '\r' ∉ line) (hfeed : '\n' ∉ line) (stop : LineEnd)
    (text : List Char) : paths (unify (line ++ (stop.text.toList ++ text))) =
      pathsFrom 0 line ++ paths (unify text) := by
  rw [unify_append hreturn]
  cases stop with
  | lineFeed =>
    show paths (line ++ unify ('\n' :: text)) = _
    rw [unify_cons (by decide), paths_append_cons hfeed]
  | both => exact paths_append_cons hfeed (unify text)
  | carriageReturn =>
    -- A line feed that comes next ends an empty line of its own, or belongs to this line end.
    by_cases htext : ∃ rest, text = '\n' :: rest
    · obtain ⟨rest, rfl⟩ := htext
      have hempty : paths (unify ('\n' :: rest)) = paths (unify rest) := by
        rw [unify_cons (by decide)]
        exact paths_append_cons List.not_mem_nil (unify rest)
      rw [hempty]
      exact paths_append_cons hfeed (unify rest)
    · have hunify : unify ('\r' :: text) = '\n' :: unify text := by
        rw [unify]
        · rfl
        · exact fun rest _ h ↦ htext ⟨rest, h⟩
      show paths (line ++ unify ('\r' :: text)) = _
      rw [hunify, paths_append_cons hfeed]

variable {lines : List (Line × LineEnd)} {last : Line}

/-- **What a solution names that is written.** -/
theorem paths_written (hlines : ∀ line ∈ lines, line.1.WellFormed) (hlast : last.WellFormed) :
    paths (unify (written lines last).toList) = (projectsOf lines last).map Entry.path := by
  induction lines with
  | nil =>
    have hfeed : '\n' ∉ last.text.toList := hlast.not_mem (.inr rfl)
    rw [written, unify_eq_self (hlast.not_mem (.inl rfl)), paths, Text.splitOn_of_not_mem hfeed,
      List.flatMap_singleton, pathsFrom_line hlast, projectsOf]
    cases last <;> rfl
  | cons head lines ih =>
    obtain ⟨line, stop⟩ := head
    obtain ⟨hline, hrest⟩ := List.forall_mem_cons.1 hlines
    have hprojects : projectsOf ((line, stop) :: lines) last =
        (line.declared?.toList).filter Entry.isProject ++ projectsOf lines last := by
      rw [projectsOf, projectsOf]
      cases line with
      | entry e => exact List.filter_append [e] _
      | other s => rfl
    rw [written, String.toList_append, String.toList_append, List.append_assoc,
      paths_unify_append (hline.not_mem (.inl rfl)) (hline.not_mem (.inr rfl)), pathsFrom_line hline,
      ih hrest, hprojects, List.map_append]

/-- A first character that is none of an entry or a line end makes no difference. -/
theorem paths_unify_cons {c : Char} (hreturn : c ≠ '\r') (hfeed : c ≠ '\n') (hstart : c ≠ 'P')
    (text : List Char) : paths (unify (c :: text)) = paths (unify text) := by
  rw [unify_cons hreturn, paths, Text.splitOn]
  cases hsplit : Text.splitOn '\n' (unify text) with
  | nil => exact absurd hsplit (Text.splitOn_ne_nil _ _)
  | cons line rest =>
    have hnone : entry? (c :: line) = none :=
      entry?_of_not_prefix fun h ↦ hstart (List.cons_prefix_cons.1 h).1.symm
    simp only [if_neg hfeed, List.flatMap_cons, pathsFrom, hnone, paths, hsplit]

/-- A mark at the start of a text makes no difference. -/
theorem paths_unify_mark (text : List Char) :
    paths (unify (Utf8.byteOrderMark :: text)) = paths (unify text) :=
  paths_unify_cons (by decide) (by decide) (by decide) text

/-- What a file names is what its octets name, whether or not a mark is taken off them. -/
theorem paths_textOf (content : ByteArray) :
    paths (textOf content) = paths (unify (Utf8.decode content.toList)) := by
  rw [textOf, Utf8.fileText]
  cases Utf8.decode content.toList with
  | nil => rfl
  | cons c rest =>
    by_cases hc : c = Utf8.byteOrderMark
    · simp only [hc, if_true, String.toList_ofList]
      exact (paths_unify_mark rest).symm
    · simp only [if_neg hc, String.toList_ofList]

end

/-! ### The projects of a solution -/

section

open Outcome

variable {d : Disk} {path mark : String} {directory : Path} {content : ByteArray}
  {lines : List (Line × LineEnd)} {last : Line}

theorem projectAt?_eq_ok_iff {entry : String} {l : Location} :
    projectAt? d directory entry = .ok l ↔ '\x00' ∉ entry.toList ∧
      d.resolve? (directory.join (.ofText (Path.withSlashes entry))) = .ok l := by
  rw [projectAt?]
  split
  · rename_i hnul
    exact ⟨nofun, fun h ↦ absurd hnul h.1⟩
  · rename_i hnul
    rw [mapError_eq_ok_iff]
    exact ⟨fun h ↦ ⟨hnul, h⟩, And.right⟩

/-- The projects of a solution that can be read are those of its paths. -/
theorem projects?_of_read? (hread : d.read? (Path.ofText path).text = .ok content) :
    projects? d path =
      (paths (textOf content)).mapM (projectAt? d (Path.ofText path).parent) := by
  rw [projects?, hread]
  rfl

/-- **Reading a solution undoes writing it.** Let the file at a path hold lines with any line ends,
behind a mark or not, each an entry or a line in which no entry starts. Let no path of a project
among the entries have a NUL in it, and let no links on such a path lead back to themselves. Then the
projects of the solution are those of the entries whose paths end in `.csproj`, in order and as often
as they are there, each where its path leads from the directory of the solution. -/
theorem projects?_written (hread : d.read? (Path.ofText path).text = .ok content)
    (hmark : mark = "" ∨ mark = String.singleton Utf8.byteOrderMark)
    (htext : Utf8.text content = mark ++ written lines last)
    (hlines : ∀ line ∈ lines, line.1.WellFormed) (hlast : last.WellFormed)
    (hnul : ∀ e ∈ projectsOf lines last, '\x00' ∉ e.path.toList)
    (hloop : ∀ e ∈ projectsOf lines last,
      ∃ l, d.resolve? (e.pathFrom (Path.ofText path).parent) = .ok l) :
    ∃ projects, projects? d path = .ok projects ∧
      List.Forall₂ (fun e l ↦ d.resolve? (e.pathFrom (Path.ofText path).parent) = .ok l)
        (projectsOf lines last) projects := by
  have hdecode : Utf8.decode content.toList = mark.toList ++ (written lines last).toList := by
    rw [← String.toList_append, ← htext, Utf8.text, String.toList_ofList]
  have hpaths : paths (textOf content) = (projectsOf lines last).map Entry.path := by
    rw [paths_textOf, hdecode, ← paths_written hlines hlast]
    rcases hmark with rfl | rfl
    · rfl
    · rw [String.toList_singleton]
      exact paths_unify_mark _
  obtain ⟨projects, hprojects⟩ : ∃ projects, (paths (textOf content)).mapM
      (projectAt? d (Path.ofText path).parent) = .ok projects := by
    refine exists_mapM_eq_ok ?_
    rw [hpaths]
    intro p hp
    obtain ⟨e, he, rfl⟩ := List.mem_map.1 hp
    obtain ⟨l, hl⟩ := hloop e he
    exact ⟨l, projectAt?_eq_ok_iff.2 ⟨hnul e he, hl⟩⟩
  refine ⟨projects, (projects?_of_read? hread).trans hprojects, ?_⟩
  rw [hpaths, mapM_eq_ok_iff, List.forall₂_map_left_iff] at hprojects
  exact hprojects.imp fun _ _ h ↦ (projectAt?_eq_ok_iff.1 h).2

end

/-! ### Solutions beside nothing -/

/-- A disk whose root directory holds nothing but a solution. -/
def diskOf (text : String) : Disk := ⟨[("a.sln", .file text.toUTF8)], []⟩

theorem read?_diskOf (text : String) :
    (diskOf text).read? (Path.ofText "a.sln").text = .ok text.toUTF8 := by
  have hplain : Disk.IsPlain "a.sln" := by decide
  rw [hplain.text_ofText, Disk.read?, diskOf, hplain.find?_eq rfl (by simp)]

/-- A name beside the solution stands for itself. -/
theorem resolve?_diskOf (text : String) {name : String} (h : Disk.IsPlain name) (anchor : String) :
    (diskOf text).resolve? ⟨anchor, [name]⟩ = .ok [name] := by
  refine h.resolve?_of_not_link (fun s hs ↦ ?_) anchor
  rw [List.lookup_cons] at hs
  split at hs <;> cases hs

/-- A folder whose name is that of a project. -/
def folderEntry : Entry where
  kind := "2150E333-8FDC-42A3-9474-1A3956D46DE8"
  name := "a.csproj"
  path := "lib"
  id := "00000000-0000-0000-0000-000000000000"

/-- A project whose path ends like two. -/
def projectEntry : Entry where
  kind := "9A19103F-16F7-4668-BE54-9A1E7A4F7556"
  name := "b"
  path := ".\\b.csproj.csproj"
  id := "00000000-0000-0000-0000-000000000001"

/-- The lines of a solution with these entries, but for its last. -/
def sampleLines : List (Line × LineEnd) :=
  [(.other "Microsoft Visual Studio Solution File", .both), (.entry folderEntry, .carriageReturn),
    (.entry projectEntry, .lineFeed), (.other "EndProject", .both)]

/-- A solution behind a mark that names one project twice. -/
theorem projects?_written_sample : ∃ projects,
    projects? (diskOf (String.singleton Utf8.byteOrderMark ++
      written sampleLines (.entry projectEntry))) "a.sln" = .ok projects ∧
    projects = [["b.csproj.csproj"], ["b.csproj.csproj"]] := by
  have hprojects : projectsOf sampleLines (.entry projectEntry) = [projectEntry, projectEntry] := by
    decide +kernel
  have hpath : projectEntry.pathFrom (Path.ofText "a.sln").parent = ⟨"", ["b.csproj.csproj"]⟩ := by
    decide +kernel
  have hresolve (text : String) :
      (diskOf text).resolve? (projectEntry.pathFrom (Path.ofText "a.sln").parent) =
        .ok ["b.csproj.csproj"] := by
    rw [hpath]
    exact resolve?_diskOf text (by decide) ""
  obtain ⟨projects, hread, hresolved⟩ := projects?_written (read?_diskOf _) (.inr rfl)
    (Utf8.text_toUTF8 _) (by decide +kernel : ∀ line ∈ sampleLines, line.1.WellFormed)
    (by decide +kernel : (Line.entry projectEntry).WellFormed)
    (by rw [hprojects]; decide +kernel)
    (fun e he ↦ by
      rw [hprojects] at he
      obtain rfl : e = projectEntry := by simpa using he
      exact ⟨_, hresolve _⟩)
  refine ⟨projects, hread, ?_⟩
  rw [hprojects] at hresolved
  cases hresolved with
  | cons hfirst hrest =>
    cases hrest with
    | cons hsecond hnone =>
      cases hnone
      rw [hresolve] at hfirst hsecond
      cases hfirst
      cases hsecond
      rfl

/-- A project with a NUL in its path. -/
def nulEntry : Entry where
  kind := "00000000-0000-0000-0000-000000000000"
  name := "p"
  path := "a\x00.csproj"
  id := "00000000-0000-0000-0000-000000000000"

/-- **A path with a NUL in it is not read as it was written**: it is none. -/
theorem projects?_nulEntry :
    nulEntry.WellFormed ∧ nulEntry.isProject = true ∧
      (diskOf (written [(.entry nulEntry, .lineFeed)] (.other ""))).resolve?
        (nulEntry.pathFrom (Path.ofText "a.sln").parent) = .ok ["a\x00.csproj"] ∧
      projects? (diskOf (written [(.entry nulEntry, .lineFeed)] (.other ""))) "a.sln" =
        .error .nulInPath := by
  have hpath : nulEntry.pathFrom (Path.ofText "a.sln").parent = ⟨"", ["a\x00.csproj"]⟩ := by
    decide +kernel
  have hpaths : paths (textOf (written [(.entry nulEntry, .lineFeed)] (.other "")).toUTF8) =
      ["a\x00.csproj"] := by
    have htext : Utf8.decode
        (written [(.entry nulEntry, .lineFeed)] (.other "")).toUTF8.toList =
          (written [(.entry nulEntry, .lineFeed)] (.other "")).toList := by
      rw [Utf8.toList_eq_data, Utf8.toList_data_toUTF8, Utf8.decode_encode]
    rw [paths_textOf, htext]
    decide +kernel
  refine ⟨by decide +kernel, by decide +kernel, ?_, ?_⟩
  · rw [hpath]
    exact resolve?_diskOf _ (by decide) ""
  · rw [projects?_of_read? (read?_diskOf _), hpaths]
    rfl

end Solution

end CommentScope
