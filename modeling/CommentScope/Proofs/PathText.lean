import CommentScope.Path
import Mathlib.Data.List.Basic
import Mathlib.Data.List.Infix

/-!
# Texts of paths

A text is known by its pieces: pieces that are joined are found again when the text is cut
(`Text.splitOn_joinWith`), and so are the parts of a path when it is written with slashes between
them (`Path.pieces_intercalate`). With fewer pieces a text is no longer than before.
-/

namespace CommentScope

/-! ### Pieces of texts -/

namespace Text

variable {sep : Char} {cs : List Char} {pieces : List (List Char)}

theorem splitOn_of_not_mem (h : sep ∉ cs) : splitOn sep cs = [cs] := by
  induction cs with
  | nil => rfl
  | cons c cs ih =>
    obtain ⟨hc, hcs⟩ := not_or.1 (List.mem_cons.not.1 h)
    rw [splitOn, ih hcs]
    exact if_neg (Ne.symm hc)

theorem splitOn_append_cons (h : sep ∉ cs) (rest : List Char) :
    splitOn sep (cs ++ sep :: rest) = cs :: splitOn sep rest := by
  induction cs with
  | nil =>
    rw [List.nil_append, splitOn]
    cases hrest : splitOn sep rest with
    | nil => exact absurd hrest (splitOn_ne_nil sep rest)
    | cons piece pieces => exact if_pos rfl
  | cons c cs ih =>
    obtain ⟨hc, hcs⟩ := not_or.1 (List.mem_cons.not.1 h)
    rw [List.cons_append, splitOn, ih hcs]
    exact if_neg (Ne.symm hc)

theorem joinWith_cons_cons (piece next : List Char) (pieces : List (List Char)) :
    joinWith sep (piece :: next :: pieces) = piece ++ sep :: joinWith sep (next :: pieces) := rfl

/-- **Pieces that are joined are found again.** -/
theorem splitOn_joinWith (hne : pieces ≠ []) (h : ∀ p ∈ pieces, sep ∉ p) :
    splitOn sep (joinWith sep pieces) = pieces := by
  induction pieces with
  | nil => exact absurd rfl hne
  | cons piece pieces ih =>
    obtain ⟨hpiece, hpieces⟩ := List.forall_mem_cons.1 h
    cases pieces with
    | nil => exact splitOn_of_not_mem hpiece
    | cons next pieces =>
      rw [joinWith_cons_cons, splitOn_append_cons hpiece, ih (List.cons_ne_nil _ _) hpieces]

theorem sublist_joinWith_cons (piece : List Char) (pieces : List (List Char)) :
    (joinWith sep pieces).Sublist (joinWith sep (piece :: pieces)) := by
  cases pieces with
  | nil => exact List.nil_sublist _
  | cons next pieces =>
    rw [joinWith_cons_cons]
    exact (List.sublist_cons_self _ _).trans (List.sublist_append_right _ _)

/-- Joining fewer pieces gives a part of the text. -/
theorem joinWith_sublist {few pieces : List (List Char)} (h : few.Sublist pieces) :
    (joinWith sep few).Sublist (joinWith sep pieces) := by
  induction h with
  | slnil => exact List.Sublist.refl _
  | cons piece _ ih => exact ih.trans (sublist_joinWith_cons piece _)
  | @cons_cons few pieces piece hsub ih =>
    cases few with
    | nil =>
      cases pieces with
      | nil => exact List.Sublist.refl _
      | cons next pieces =>
        rw [joinWith_cons_cons]
        exact List.sublist_append_left _ _
    | cons first few =>
      cases pieces with
      | nil => cases hsub
      | cons next pieces =>
        rw [joinWith_cons_cons, joinWith_cons_cons]
        exact (List.Sublist.refl piece).append (ih.cons_cons sep)

/-- The last piece of a text is an ending of it. -/
theorem joinWith_concat (pieces : List (List Char)) (piece : List Char) (h : pieces ≠ []) :
    joinWith sep (pieces ++ [piece]) = joinWith sep pieces ++ sep :: piece := by
  induction pieces with
  | nil => exact absurd rfl h
  | cons first pieces ih =>
    cases pieces with
    | nil => rfl
    | cons next pieces =>
      rw [List.cons_append, List.cons_append, joinWith_cons_cons, ← List.cons_append,
        ih (List.cons_ne_nil _ _), joinWith_cons_cons, List.append_assoc]
      rfl

/-- The first piece of a text is a start of it. -/
theorem prefix_joinWith_cons (piece : List Char) (pieces : List (List Char)) :
    piece <+: joinWith sep (piece :: pieces) := by
  cases pieces with
  | nil => exact List.prefix_rfl
  | cons next pieces => exact List.prefix_append _ _

/-- A text starts with what it is joined by only if its first piece is empty. -/
theorem head?_joinWith_cons {piece : List Char} (pieces : List (List Char)) (hne : piece ≠ [])
    (h : sep ∉ piece) : (joinWith sep (piece :: pieces)).head? ≠ some sep := by
  obtain ⟨behind, hbehind⟩ := @prefix_joinWith_cons sep piece pieces
  rw [← hbehind, List.head?_append_of_ne_nil _ hne]
  exact fun hhead ↦ h (List.mem_of_head? hhead)

/-- The last piece of a text is an ending of it. -/
theorem suffix_joinWith_concat (pieces : List (List Char)) (piece : List Char) :
    piece <:+ joinWith sep (pieces ++ [piece]) := by
  cases pieces with
  | nil => exact List.suffix_rfl
  | cons first pieces =>
    rw [joinWith_concat _ _ (List.cons_ne_nil _ _)]
    exact (List.suffix_cons _ _).trans (List.suffix_append _ _)

/-- A text ends with what it is joined by only if its last piece is empty. -/
theorem getLast?_joinWith_concat {piece : List Char} (pieces : List (List Char)) (hne : piece ≠ [])
    (h : sep ∉ piece) : (joinWith sep (pieces ++ [piece])).getLast? ≠ some sep := by
  obtain ⟨before, hbefore⟩ := suffix_joinWith_concat pieces piece
  rw [← hbefore, List.getLast?_append_of_ne_nil _ hne]
  exact fun hlast ↦ h (List.mem_of_getLast? hlast)

theorem joinWith_eq_intercalate (pieces : List (List Char)) :
    joinWith sep pieces = [sep].intercalate pieces := by
  induction pieces with
  | nil => rfl
  | cons piece pieces ih =>
    cases pieces with
    | nil => simp [joinWith]
    | cons next pieces => rw [joinWith_cons_cons, ih]; simp [List.intercalate]

end Text

/-! ### Pieces of paths -/

namespace Path

variable {s : String} {parts : List String}

theorem toList_intercalate_slash (parts : List String) :
    ("/".intercalate parts).toList = Text.joinWith '/' (parts.map String.toList) := by
  rw [String.toList_intercalate, Text.joinWith_eq_intercalate]
  rfl

/-- **The pieces of a path are those that it was put together from.** -/
theorem pieces_intercalate (hne : parts ≠ []) (h : ∀ p ∈ parts, '/' ∉ p.toList) :
    pieces ("/".intercalate parts) = parts := by
  have hne' : parts.map String.toList ≠ [] := by simpa using hne
  have h' : ∀ p ∈ parts.map String.toList, '/' ∉ p := by simpa using h
  rw [pieces, toList_intercalate_slash, Text.splitOn_joinWith hne' h', List.map_map]
  simp [Function.comp_def]

theorem intercalate_pieces (s : String) : "/".intercalate (pieces s) = s := by
  rw [← String.toList_inj, toList_intercalate_slash, pieces, List.map_map]
  simp [Function.comp_def, Text.joinWith_splitOn]

theorem slash_not_mem_of_mem_pieces {p : String} (h : p ∈ pieces s) : '/' ∉ p.toList := by
  obtain ⟨piece, hpiece, rfl⟩ := List.mem_map.1 h
  rw [String.toList_ofList]
  exact Text.not_mem_of_mem_splitOn hpiece

theorem pieces_ne_nil (s : String) : pieces s ≠ [] := by
  rw [pieces, Ne, List.map_eq_nil_iff]
  exact Text.splitOn_ne_nil _ _

/-- What is left of the size of a text when some of it is left out. -/
theorem utf8ByteSize_le_of_sublist {cs ds : List Char} (h : cs.Sublist ds) :
    (String.ofList cs).utf8ByteSize ≤ (String.ofList ds).utf8ByteSize := by
  induction h with
  | slnil => exact Nat.le_refl _
  | cons c _ ih =>
    rw [String.ofList_cons, String.utf8ByteSize_append]
    omega
  | cons_cons c _ ih =>
    rw [String.ofList_cons, String.ofList_cons, String.utf8ByteSize_append,
      String.utf8ByteSize_append]
    omega

/-- A relative path has no anchor. -/
theorem anchorOf_eq_empty (hrelative : s.toList.head? ≠ some '/') : anchorOf s = "" := by
  have hnone : s.toList.takeWhile (· == '/') = [] := by
    cases hs : s.toList with
    | nil => rfl
    | cons c cs =>
      rw [hs] at hrelative
      have hc : (c == '/') = false := by simpa using hrelative
      rw [List.takeWhile_cons, hc]
      rfl
  rw [anchorOf, hnone]
  rfl

/-- A relative path is written with slashes between its parts. -/
theorem text_ofText (hrelative : s.toList.head? ≠ some '/') (hne : (ofText s).parts ≠ []) :
    (ofText s).text = "/".intercalate (ofText s).parts := by
  have hanchor : (ofText s).anchor = "" := anchorOf_eq_empty hrelative
  have hparts : (ofText s).parts.isEmpty = false := by simpa using hne
  rw [text, hanchor, hparts]
  exact String.empty_append

/-- A path is no longer than its text. -/
theorem utf8ByteSize_intercalate_parts_le (s : String) :
    ("/".intercalate (ofText s).parts).utf8ByteSize ≤ s.utf8ByteSize := by
  have hsub : (ofText s).parts.Sublist (pieces s) := List.filter_sublist
  have hjoined := @Text.joinWith_sublist '/' _ _ (hsub.map String.toList)
  rw [← toList_intercalate_slash, ← toList_intercalate_slash, intercalate_pieces] at hjoined
  simpa only [String.ofList_toList] using utf8ByteSize_le_of_sublist hjoined

/-- The suffix of a name is an ending of it. -/
theorem suffixOf_suffix (name : String) : (suffixOf name).toList <:+ name.toList := by
  rw [suffixOf]
  split
  · rw [String.toList_empty]
    exact List.nil_suffix
  · rename_i h
    obtain ⟨-, hlength⟩ := not_or.1 h
    have hsplit := @List.takeWhile_append_dropWhile _ (· != '.') name.toList.reverse
    have hdot := List.head?_dropWhile_not (· != '.') name.toList.reverse
    generalize name.toList.reverse.takeWhile (· != '.') = behind at hlength hsplit ⊢
    cases hrest : name.toList.reverse.dropWhile (· != '.') with
    | nil =>
      rw [hrest, List.append_nil] at hsplit
      rw [hsplit, List.reverse_reverse] at hlength
      exact absurd (Nat.le_succ _) hlength
    | cons c rest =>
      rw [hrest] at hsplit hdot
      have hc : c = '.' := by simpa using hdot
      refine ⟨rest.reverse, ?_⟩
      rw [← List.reverse_inj, ← hsplit, hc]
      simp

/-- Whether a path has an ending in any case. -/
def HasEnding (path ending : String) : Prop :=
  ∃ tail, tail <:+ path.toList ∧ Text.lower (String.ofList tail) = ending

instance (path ending : String) : Decidable (HasEnding path ending) :=
  decidable_of_iff (∃ tail ∈ path.toList.tails, Text.lower (String.ofList tail) = ending) <| by
    simp only [List.mem_tails]
    rfl

end Path

end CommentScope
