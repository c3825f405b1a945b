import CommentScope.Markers
import CommentScope.Text.Blank

/-!
# Markers in joined lines

Lines of documentation are joined to one text with what stands between them: a line end and blanks.
For the standard markers this makes no difference: the joined text is wanted if and only if one of
the lines is (`Markers.accepts_joined`). A marker that ends a line is found as a suffix when the
line stands alone, and by the line end behind it when it does not; and no marker reaches over a
line end, because a line end is at most its last character and no blank is its first.
-/

namespace CommentScope

namespace Text

/-- Whether a text is what stands between two lines: a line end, and blanks. -/
def isLineGap : List Char → Bool
  | '\n' :: blanks => blanks.all isSpace
  | '\r' :: '\n' :: blanks => blanks.all isSpace
  | _ => false

/-- Between two lines there is a line end first, and blanks only. -/
theorem eq_cons_of_isLineGap {gap : List Char} (h : isLineGap gap = true) :
    ∃ e rest, gap = e :: rest ∧ (e = '\r' ∨ e = '\n') ∧ ∀ c ∈ gap, isSpace c = true := by
  unfold isLineGap at h
  split at h
  · rename_i blanks
    refine ⟨'\n', blanks, rfl, .inr rfl, List.forall_mem_cons.2 ⟨by decide, ?_⟩⟩
    exact List.all_eq_true.1 h
  · rename_i blanks
    refine ⟨'\r', '\n' :: blanks, rfl, .inl rfl, List.forall_mem_cons.2 ⟨by decide,
      List.forall_mem_cons.2 ⟨by decide, ?_⟩⟩⟩
    exact List.all_eq_true.1 h
  · cases h

/-- What does not start with a blank does not start among blanks. -/
theorem infix_of_blanks {a : Char} {part blanks text : List Char} (ha : isSpace a = false)
    (hblanks : ∀ c ∈ blanks, isSpace c = true) (h : a :: part <:+: blanks ++ text) :
    a :: part <:+: text := by
  induction blanks with
  | nil => exact h
  | cons b blanks ih =>
    rw [List.cons_append, List.infix_cons_iff] at h
    rcases h with h | h
    · have hab : a = b := (List.cons_prefix_cons.1 h).1
      have hb := hblanks b List.mem_cons_self
      rw [← hab, ha] at hb
      cases hb
    · exact ih (fun c hc ↦ hblanks c (List.mem_cons_of_mem b hc)) h

/-- What holds no blank does not end in a text and blanks, but only in what comes behind them. -/
theorem suffix_of_blanks {part text blanks more : List Char} (hne : blanks ≠ [])
    (hpart : ∀ c ∈ part, isSpace c = false) (hblanks : ∀ c ∈ blanks, isSpace c = true)
    (h : part <:+ text ++ blanks ++ more) : part <:+ more := by
  obtain ⟨front, hfront⟩ := h
  rcases List.append_eq_append_iff.1 hfront with ⟨as, htext, rfl⟩ | ⟨bs, -, hmore⟩
  · rcases List.eq_nil_or_concat as with rfl | ⟨init, c, rfl⟩
    · exact List.suffix_refl more
    · -- The last of the blanks would be a part of what holds no blank.
      obtain ⟨init', b, rfl⟩ := (List.eq_nil_or_concat blanks).resolve_left hne
      rw [List.concat_eq_append, List.concat_eq_append, ← List.append_assoc, ← List.append_assoc]
        at htext
      have hbc : [b] = [c] := List.append_inj_right' htext rfl
      have hblank := hblanks b (by simp)
      have hmem := hpart c (by simp)
      rw [List.singleton_inj.1 hbc, hmem] at hblank
      cases hblank
  · exact ⟨bs, hmore.symm⟩

end Text

namespace Markers

open Text

/-- The marker that is wanted at the end of a text. -/
def todo : List Char := ['T', 'O', 'D', 'O']

theorem mem_suffixes_iff {m : String} : m ∈ standard.suffixes ↔ m.toList = todo := by
  rw [standard, List.mem_singleton, ← String.toList_inj]
  rfl

/-- No standard marker starts with a blank. -/
theorem exists_cons_of_mem {m : String} (hm : m ∈ standard.contains) :
    ∃ a part, m.toList = a :: part ∧ isSpace a = false := by
  have hstart : ∀ m ∈ standard.contains, (m.toList.head?.any fun a ↦ !isSpace a) = true := by
    decide +kernel
  have hhead := hstart m hm
  rcases h : m.toList with _ | ⟨a, part⟩
  · rw [h] at hhead
    exact absurd hhead Bool.false_ne_true
  · rw [h] at hhead
    exact ⟨a, part, rfl, Bool.not_eq_true' _ ▸ hhead⟩

/-- A line end in a standard marker has the marker of suffixes before it. -/
theorem eq_todo_of_mem {m : String} (hm : m ∈ standard.contains) {front back : List Char} {e : Char}
    (he : e = '\r' ∨ e = '\n') (h : m.toList = front ++ e :: back) : front = todo := by
  have hcut : ∀ m ∈ standard.contains, ∀ k < m.toList.length,
      m.toList[k]? = some '\r' ∨ m.toList[k]? = some '\n' → m.toList.take k = todo := by
    decide +kernel
  have hlt : front.length < m.toList.length := by rw [h]; simp
  have hget : m.toList[front.length]? = some e := by rw [h]; simp
  have htake := hcut m hm front.length hlt (by rw [hget]; rcases he with rfl | rfl <;> simp)
  rwa [h, List.take_left] at htake

/-- A marker of suffixes with a line end behind it is a standard marker. -/
theorem exists_mem_of_lineEnd {e : Char} (he : e = '\r' ∨ e = '\n') :
    ∃ m ∈ standard.contains, m.toList = todo ++ [e] := by
  rcases he with rfl | rfl
  · exact ⟨"TODO\r", by decide, by decide⟩
  · exact ⟨"TODO\n", by decide, by decide⟩

/-- **Joining two lines neither hides a marker nor makes one**: the joined text is wanted if and
only if one of the lines is. -/
theorem accepts_joined {x gap y : List Char} (h : isLineGap gap = true) :
    standard.accepts (String.ofList (x ++ (gap ++ y))) = true ↔
      standard.accepts (String.ofList x) = true ∨ standard.accepts (String.ofList y) = true := by
  obtain ⟨e, rest, hgap, he, hblanks⟩ := eq_cons_of_isLineGap h
  simp only [accepts_iff, String.toList_ofList]
  constructor
  · rintro (⟨m, hm, hinfix⟩ | ⟨m, hm, hsuffix⟩)
    · obtain ⟨a, part, hma, ha⟩ := exists_cons_of_mem hm
      rcases List.infix_append_iff_ne_nil.1 hinfix with
        hx | hy | ⟨front, back, -, hne, hsplit, hx, hy⟩
      · exact .inl (.inl ⟨m, hm, hx⟩)
      · rw [hma] at hy
        exact .inr (.inl ⟨m, hm, hma ▸ infix_of_blanks ha hblanks hy⟩)
      · -- The part behind `x` starts with the line end.
        obtain ⟨b, back', rfl⟩ := List.exists_cons_of_ne_nil hne
        rw [hgap, List.cons_append, List.cons_prefix_cons] at hy
        have hfront : front = todo := eq_todo_of_mem hm he (hy.1 ▸ hsplit)
        rw [hfront] at hx
        have hm' : "TODO" ∈ standard.suffixes := List.mem_cons_self
        exact .inl (.inr ⟨"TODO", hm', by rwa [mem_suffixes_iff.1 hm']⟩)
    · have htodo := mem_suffixes_iff.1 hm
      rw [htodo, ← List.append_assoc] at hsuffix
      have hne : gap ≠ [] := by rw [hgap]; exact List.cons_ne_nil e rest
      have hall : (todo.all fun c ↦ !isSpace c) = true := by decide
      have hpart : ∀ c ∈ todo, isSpace c = false := fun c hc ↦ by
        simpa using List.all_eq_true.1 hall c hc
      exact .inr (.inr ⟨m, hm, htodo ▸ suffix_of_blanks hne hpart hblanks hsuffix⟩)
  · rintro ((⟨m, hm, hinfix⟩ | ⟨m, hm, hsuffix⟩) | (⟨m, hm, hinfix⟩ | ⟨m, hm, hsuffix⟩))
    · exact .inl ⟨m, hm, hinfix.trans (List.prefix_append x _).isInfix⟩
    · obtain ⟨m', hm', hlist⟩ := exists_mem_of_lineEnd he
      obtain ⟨front, rfl⟩ := mem_suffixes_iff.1 hm ▸ hsuffix
      refine .inl ⟨m', hm', front, rest ++ y, ?_⟩
      rw [hlist, hgap]
      simp
    · exact .inl ⟨m, hm, hinfix.trans ((List.suffix_append gap y).trans
        (List.suffix_append x _)).isInfix⟩
    · exact .inr ⟨m, hm, hsuffix.trans ((List.suffix_append gap y).trans
        (List.suffix_append x _))⟩

end Markers

end CommentScope
