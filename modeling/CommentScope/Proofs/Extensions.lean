import CommentScope.Languages
import CommentScope.Proofs.PathText
import CommentScope.Sources.Discovery
import CommentScope.Sources.Project
import Mathlib.Data.List.TakeWhile

/-!
# Names, suffixes and extensions

Whether a file is a source is told in three ways. Below a directory it is told by the suffix of its
name in lower case, in a project by the end of its name in lower case, and its language by what stands
behind the last dot of its path, where backslashes separate directories too. They agree: a path that
ends in a name with a suffix has that suffix for its extension (`extensionOf_eq_lower_suffixOf`), and
one that ends in the name of a source has the extension of sources
(`extensionOf_of_isSourceName`).

Lower case is not told letter by letter, so a name may have other characters than its lower case. But a
character that is ASCII in lower case says what it was by itself, and a dot is seen through by the rule
for letters at the ends of words.
-/

namespace CommentScope

namespace Text

/-! ### Last pieces -/

section

variable {sep : Char} {rest : List Char}

theorem splitOn_cons {cs piece : List Char} {pieces : List (List Char)}
    (h : splitOn sep cs = piece :: pieces) (c : Char) : splitOn sep (c :: cs) =
      if c = sep then [] :: piece :: pieces else (c :: piece) :: pieces := by
  rw [splitOn, h]

/-- A text is cut where the character is that it is cut at. -/
theorem splitOn_append_sep (cs rest : List Char) :
    splitOn sep (cs ++ sep :: rest) = splitOn sep cs ++ splitOn sep rest := by
  induction cs with
  | nil =>
    obtain ⟨piece, pieces, h⟩ := List.exists_cons_of_ne_nil (splitOn_ne_nil sep rest)
    rw [List.nil_append, splitOn_cons h, if_pos rfl, h]
    rfl
  | cons c cs ih =>
    obtain ⟨piece, pieces, h⟩ := List.exists_cons_of_ne_nil (splitOn_ne_nil sep cs)
    have hwhole : splitOn sep (cs ++ sep :: rest) = piece :: (pieces ++ splitOn sep rest) := by
      rw [ih, h, List.cons_append]
    rw [List.cons_append, splitOn_cons hwhole, splitOn_cons h]
    split <;> rfl

/-- The last piece of a text ends like the text, if the character that this is cut at is not there. -/
theorem exists_getLast?_splitOn (cs : List Char) (h : sep ∉ rest) :
    ∃ front, (splitOn sep (cs ++ rest)).getLast? = some (front ++ rest) := by
  induction cs with
  | nil => exact ⟨[], by rw [List.nil_append, splitOn_of_not_mem h]; rfl⟩
  | cons c cs ih =>
    obtain ⟨front, hfront⟩ := ih
    obtain ⟨piece, pieces, hsplit⟩ :=
      List.exists_cons_of_ne_nil (splitOn_ne_nil sep (cs ++ rest))
    rw [hsplit] at hfront
    rw [List.cons_append, splitOn_cons hsplit]
    split
    · exact ⟨front, hfront⟩
    · cases pieces with
      | nil =>
        obtain rfl : piece = front ++ rest := by simpa using hfront
        exact ⟨c :: front, rfl⟩
      | cons next pieces => exact ⟨front, hfront⟩

end

/-! ### Characters in lower case -/

section

variable {before behind : List Char} {c x : Char}

/-- A character becomes one character, or two with the last of them a combining dot. -/
theorem lowerBetween_cases (before : List Char) (c : Char) (behind : List Char) :
    lowerBetween before c behind = ['i', '\u0307'] ∨ ∃ x, lowerBetween before c behind = [x] := by
  rw [lowerBetween]
  split
  · exact .inl rfl
  · split
    · exact .inr ⟨_, rfl⟩
    · exact .inr ⟨_, rfl⟩

/-- **What is ASCII in lower case does not depend on what is around it.** -/
theorem lowerBetween_of_ascii (h : lowerBetween before c behind = [x]) (hx : x.toNat < 128) :
    lowerChar c = x ∧ ∀ before' behind', lowerBetween before' c behind' = [x] := by
  have hdot : c ≠ 'İ' := by
    rintro rfl
    cases h
  have hsigma : c ≠ 'Σ' := by
    rintro rfl
    rw [lowerBetween, if_neg hdot, if_pos rfl] at h
    obtain rfl := (List.cons.inj h).1
    revert hx
    split <;> decide
  have hlower : ∀ before' behind', lowerBetween before' c behind' = [lowerChar c] :=
    fun _ _ ↦ by rw [lowerBetween, if_neg hdot, if_neg hsigma]
  obtain rfl : lowerChar c = x := (List.cons.inj ((hlower before behind).symm.trans h)).1
  exact ⟨rfl, hlower⟩

/-- The dot has one number. -/
theorem eq_of_ofNat_eq_dot {n : Nat} (h : Char.ofNat n = '.') : n = 46 := by
  by_cases hvalid : n.isValidChar
  · rw [Char.ofNat, dif_pos hvalid] at h
    exact congrArg Char.toNat h
  · rw [Char.ofNat, dif_neg hvalid] at h
    exact absurd h (by decide)

/-- Only a dot becomes a dot. -/
theorem eq_dot_of_lowerChar (h : lowerChar c = '.') : c = '.' := by
  rw [lowerChar] at h
  split at h
  · rename_i hascii
    have hall : ∀ n < 128, (Char.ofNat n).toLower = '.' → Char.ofNat n = '.' := by decide +kernel
    have hc := hall c.toNat hascii
    rw [Char.ofNat_toNat] at hc
    exact hc h
  · split at h
    · rename_i r hr
      -- No range of characters has a lower case as low as the dot.
      have hranges : ∀ r ∈ lowerRanges, 46 < (r.1 : Int) + r.2.2.2 := by decide +kernel
      have hlow := hranges r (List.mem_of_find?_eq_some hr)
      have hin : r.1 ≤ c.toNat := by
        have hfound := List.find?_some hr
        simp only [Bool.and_eq_true, decide_eq_true_eq] at hfound
        exact hfound.1.1
      have hnat := eq_of_ofNat_eq_dot h
      omega
    · exact h

/-! ### Ends of texts in lower case -/

/-- A text and what its characters become, each somewhere in some text. -/
inductive Lowers : List Char → List Char → Prop
  | nil : Lowers [] []
  | cons (before : List Char) (c : Char) (behind : List Char) {cs ls : List Char} :
      Lowers cs ls → Lowers (c :: cs) (lowerBetween before c behind ++ ls)

theorem lowers_lowerAfter (before cs : List Char) : Lowers cs (lowerAfter before cs) := by
  induction cs generalizing before with
  | nil => exact .nil
  | cons c cs ih => exact .cons before c cs (ih (c :: before))

theorem Lowers.eq_nil {cs : List Char} (h : Lowers cs []) : cs = [] := by
  generalize hls : [] = ls at h
  cases h with
  | nil => rfl
  | cons before c behind _ =>
    obtain ⟨hblock, -⟩ := List.append_eq_nil_iff.1 hls.symm
    rcases lowerBetween_cases before c behind with h | ⟨x, h⟩ <;> rw [h] at hblock <;> cases hblock

/-- **A last character that is ASCII in lower case is that of a last character.** -/
theorem Lowers.concat {cs front : List Char} (h : Lowers cs (front ++ [x])) (hx : x.toNat < 128) :
    ∃ cs' c, cs = cs' ++ [c] ∧ Lowers cs' front ∧ lowerChar c = x ∧
      ∀ before behind, lowerBetween before c behind = [x] := by
  generalize hls : front ++ [x] = ls at h
  induction h generalizing front with
  | nil => exact absurd hls (List.concat_ne_nil x front)
  | @cons before c behind cs ls hrest ih =>
    rcases List.eq_nil_or_concat ls with rfl | ⟨ls, y, rfl⟩
    · cases hrest.eq_nil
      rw [List.append_nil] at hls
      rcases lowerBetween_cases before c behind with h | ⟨y, h⟩
      · rw [h] at hls
        obtain ⟨-, hlast⟩ := List.append_inj' (hls.trans (show _ = ['i'] ++ ['\u0307'] from rfl)) rfl
        cases hlast
        exact absurd hx (by decide)
      · obtain ⟨rfl, hlast⟩ := List.append_inj' ((hls.trans h).trans (List.nil_append [y]).symm) rfl
        cases hlast
        exact ⟨[], c, rfl, .nil, lowerBetween_of_ascii h hx⟩
    · rw [List.concat_eq_append, ← List.append_assoc] at hls
      obtain ⟨rfl, hlast⟩ := List.append_inj' hls rfl
      cases hlast
      obtain ⟨cs', d, rfl, hfront, hd⟩ := ih (List.concat_eq_append).symm
      exact ⟨c :: cs', d, rfl, .cons before c behind hfront, hd⟩

/-- What is ASCII is there in lower case as well. -/
theorem toLower_mem_lowerAfter {cs : List Char} (before : List Char) (hc : c ∈ cs)
    (hascii : c.toNat < 128) : c.toLower ∈ lowerAfter before cs := by
  induction cs generalizing before with
  | nil => cases hc
  | cons d cs ih =>
    rw [lowerAfter, List.mem_append]
    rcases List.mem_cons.1 hc with rfl | hc
    · rw [lowerBetween_ascii _ _ hascii]
      exact .inl List.mem_cons_self
    · exact .inr (ih _ hc)

/-- A dot at the start of a text is seen through. -/
theorem meetsCased_dot (before : List Char) : meetsCased (before ++ ['.']) = meetsCased before := by
  have hdot : isCaseIgnorable '.' = true := by decide +kernel
  rw [meetsCased, meetsCased, List.dropWhile_append, List.dropWhile_cons_of_pos hdot]
  cases before.dropWhile isCaseIgnorable <;> rfl

theorem lowerAfter_dot (before cs : List Char) :
    lowerAfter (before ++ ['.']) cs = lowerAfter before cs := by
  induction cs generalizing before with
  | nil => rfl
  | cons c cs ih =>
    have hcons : lowerAfter (c :: (before ++ ['.'])) cs = lowerAfter (c :: before) cs :=
      ih (c :: before)
    rw [lowerAfter, lowerAfter, hcons, lowerBetween, lowerBetween, meetsCased_dot]

end

end Text

/-! ### Extensions -/

section

variable {path name : String} {front behind : List Char}

/-- **The extension of a path is what stands behind its last dot.** -/
theorem extensionOf_of_dot (h : path.toList = front ++ '.' :: behind)
    (hbehind : ∀ c ∈ behind, c ∉ ['.', '/', '\\']) :
    extensionOf path = "." ++ Text.lower (String.ofList behind) := by
  have hdot : '.' ∉ behind := fun hc ↦ hbehind _ hc (by decide)
  have hslash : '/' ∉ '.' :: behind := by
    rw [List.mem_cons, not_or]
    exact ⟨by decide, fun hc ↦ hbehind _ hc (by decide)⟩
  have hmap : path.toList.map (fun c ↦ if c = '\\' then '/' else c) =
      front.map (fun c ↦ if c = '\\' then '/' else c) ++ '.' :: behind := by
    have hsame : behind.map (fun c ↦ if c = '\\' then '/' else c) = behind := by
      refine (List.map_congr_left fun c hc ↦ if_neg ?_).trans (List.map_id behind)
      rintro rfl
      exact hbehind _ hc (by decide)
    rw [h, List.map_append, List.map_cons, hsame]
    rfl
  obtain ⟨name, hname⟩ :=
    Text.exists_getLast?_splitOn (front.map fun c ↦ if c = '\\' then '/' else c) hslash
  obtain ⟨piece, pieces, hpieces⟩ := List.exists_cons_of_ne_nil
    (List.reverse_ne_nil_iff.2 (Text.splitOn_ne_nil '.' name))
  have hreverse : (Text.splitOn '.' (name ++ '.' :: behind)).reverse = behind :: piece :: pieces := by
    rw [Text.splitOn_append_sep, Text.splitOn_of_not_mem hdot, List.reverse_append, hpieces]
    rfl
  rw [extensionOf]
  simp only [hmap, List.getLastD_eq_getLast?, hname, Option.getD_some, hreverse]

/-! ### Suffixes -/

/-- A suffix is what stands behind the last dot of a name. -/
theorem Path.exists_of_suffixOf (h : suffixOf name ≠ "") : ∃ front behind, '.' ∉ behind ∧
    name.toList = front ++ '.' :: behind ∧ suffixOf name = String.ofList ('.' :: behind) := by
  have hsuffix := suffixOf_suffix name
  rw [suffixOf] at h hsuffix ⊢
  split at h
  · exact absurd rfl h
  · rename_i hlong
    rw [if_neg hlong] at hsuffix ⊢
    rw [String.toList_ofList] at hsuffix
    obtain ⟨front, hfront⟩ := hsuffix
    refine ⟨front, _, ?_, hfront.symm, rfl⟩
    rw [List.mem_reverse]
    intro hdot
    exact absurd (List.mem_takeWhile_imp hdot) (by decide)

/-- **A path that ends in a name with a suffix has this suffix for its extension**, if that has no
slashes of either kind in it. -/
theorem extensionOf_eq_lower_suffixOf (hend : name.toList <:+ path.toList)
    (hne : Path.suffixOf name ≠ "")
    (hslash : ∀ c ∈ (Text.lower (Path.suffixOf name)).toList, c ∉ ['/', '\\']) :
    extensionOf path = Text.lower (Path.suffixOf name) := by
  obtain ⟨front, behind, hdot, hname, hsuffix⟩ := Path.exists_of_suffixOf hne
  obtain ⟨directory, hpath⟩ := hend
  rw [hname, ← List.append_assoc] at hpath
  have hlower : (Text.lower (Path.suffixOf name)).toList = '.' :: Text.lowerAfter [] behind := by
    have hbetween : Text.lowerBetween [] '.' behind = ['.'] :=
      Text.lowerBetween_ascii _ _ (by decide)
    rw [hsuffix, Text.lower, String.toList_ofList, String.toList_ofList, Text.lowerAfter, hbetween]
    exact congrArg ('.' :: ·) (Text.lowerAfter_dot [] behind)
  rw [hlower] at hslash
  have hplain : ∀ c ∈ behind, c ∉ ['.', '/', '\\'] := by
    intro c hc hmem
    rcases List.mem_cons.1 hmem with rfl | hmem
    · exact hdot hc
    · have hslashes : ∀ c ∈ ['/', '\\'], c.toNat < 128 ∧ c.toLower = c := by
        simp only [List.forall_mem_cons]
        exact ⟨by decide, by decide, List.forall_mem_nil _⟩
      obtain ⟨hascii, hsame⟩ := hslashes c hmem
      have hlow := Text.toLower_mem_lowerAfter [] hc hascii
      rw [hsame] at hlow
      exact hslash c (List.mem_cons_of_mem _ hlow) hmem
  rw [extensionOf_of_dot hpath.symm hplain, ← String.toList_inj, hlower, String.toList_append,
    Text.lower, String.toList_ofList]
  simp

/-! ### Names of sources -/

/-- **A path that ends in the name of a source has the extension of sources.** -/
theorem extensionOf_of_isSourceName (hend : name.toList <:+ path.toList)
    (h : Project.isSourceName name = true) : extensionOf path = ".cs" := by
  obtain ⟨low, hlow⟩ := List.isSuffixOf_iff_suffix.1 h
  rw [Text.lower, String.toList_ofList] at hlow
  have hend' : low ++ ['.'] ++ ['c'] ++ ['s'] = Text.lowerAfter [] name.toList := by
    rw [← String.toList_ofList (l := Text.lowerAfter [] name.toList), ← hlow]
    simp
  have hlowers : Text.Lowers name.toList (low ++ ['.'] ++ ['c'] ++ ['s']) := by
    rw [hend']
    exact Text.lowers_lowerAfter [] name.toList
  obtain ⟨front, s, hname, hfront, hs, hbetween⟩ := hlowers.concat (by decide)
  obtain ⟨front, c, rfl, hfront, hc, hbetween'⟩ := hfront.concat (by decide)
  obtain ⟨front, dot, rfl, -, hdot, -⟩ := hfront.concat (by decide)
  obtain rfl := Text.eq_dot_of_lowerChar hdot
  obtain ⟨directory, hpath⟩ := hend
  have hbehind : path.toList = directory ++ front ++ '.' :: [c, s] := by
    rw [← hpath, hname]
    simp
  have hplain : ∀ x ∈ [c, s], x ∉ ['.', '/', '\\'] := by
    have hsame : ∀ x ∈ ['.', '/', '\\'], Text.lowerChar x = x := by
      simp only [List.forall_mem_cons]
      exact ⟨by decide +kernel, by decide +kernel, by decide +kernel, List.forall_mem_nil _⟩
    intro x hx hmem
    have hx' := hsame x hmem
    rcases List.mem_cons.1 hx with rfl | hx
    · rw [hc] at hx'
      subst hx'
      exact absurd hmem (by decide)
    · cases List.mem_singleton.1 hx
      rw [hs] at hx'
      subst hx'
      exact absurd hmem (by decide)
  rw [extensionOf_of_dot hbehind hplain, Text.lower, String.toList_ofList, Text.lowerAfter,
    Text.lowerAfter, Text.lowerAfter, hbetween, hbetween']
  decide

end

end CommentScope
