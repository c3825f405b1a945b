import CommentScope.Proofs.CommentParts
import Mathlib.Data.List.Basic

/-!
# The lines of the items in a comment

Every item in a comment stands in the text of the comment, on the line that its span says, and no
item starts on an earlier line than the items before it (`Comment.standsIn_of_classify`). The lines
of the parts come from three places: the number of a line in a run of documentation lines, the line
on which a documentation block starts, and the one on which it ends. That the last is right needs
that the span of the comment has as many line ends as its text.
-/

namespace CommentScope

/-! ### Lines of a text -/

namespace Text

/-- Whether a part of a text starts on the given line. Lines are separated by line feeds and count
from zero. -/
def StandsOn (text : List Char) (line : Nat) (part : List Char) : Prop :=
  ∃ front back, text = front ++ (part ++ back) ∧ front.count '\n' = line

namespace StandsOn

variable {text part : List Char} {line : Nat}

theorem self (text : List Char) : StandsOn text 0 text :=
  ⟨[], [], (List.append_nil text).symm, rfl⟩

/-- A part of a part: the lines add up. -/
theorem within (h : StandsOn text line part) (front back : List Char) :
    StandsOn (front ++ (text ++ back)) (front.count '\n' + line) part := by
  obtain ⟨before, behind, rfl, rfl⟩ := h
  refine ⟨front ++ before, behind ++ back, ?_, List.count_append⟩
  simp only [List.append_assoc]

/-- Everything in a single line stands on it. -/
theorem of_isInfix (hline : '\n' ∉ text) (h : part <:+: text) : StandsOn text 0 part := by
  obtain ⟨front, back, rfl⟩ := h
  rw [List.append_assoc, List.mem_append, not_or] at hline
  exact ⟨front, back, List.append_assoc front part back, List.count_eq_zero.2 hline.1⟩

/-- A text has a line for each of its parts. -/
theorem le_count (h : StandsOn text line part) : line ≤ text.count '\n' := by
  obtain ⟨front, back, rfl, rfl⟩ := h
  rw [List.count_append]
  exact Nat.le_add_right _ _

end StandsOn

end Text

open Text

/-! ### Items and their lines -/

namespace Trivia

/-- Whether an item stands in a text that starts on line `first`, on the line it says. -/
def StandsIn (first : Nat) (text : List Char) (t : Trivia) : Prop :=
  ∃ k, t.span.startLine = first + k ∧ StandsOn text k t.text.toList

/-- Whether no item starts on an earlier line than the items before it. -/
def LinesRise (ts : List Trivia) : Prop :=
  ts.Pairwise fun a b ↦ a.span.startLine ≤ b.span.startLine

/-- The lines of items on one line rise. -/
theorem linesRise_of_forall_eq {ts : List Trivia} {line : Nat}
    (h : ∀ t ∈ ts, t.span.startLine = line) : LinesRise ts := by
  refine List.pairwise_of_forall_mem_list fun a ha b hb ↦ ?_
  exact Nat.le_of_eq ((h a ha).trans (h b hb).symm)

/-- An item of a text does not start before the text. -/
theorem StandsIn.le_startLine {first : Nat} {text : List Char} {t : Trivia}
    (h : t.StandsIn first text) : first ≤ t.span.startLine := by
  obtain ⟨k, hk, -⟩ := h
  exact hk ▸ Nat.le_add_right first k

/-- An item of a text starts at the latest where the text ends. -/
theorem StandsIn.startLine_le {first : Nat} {text : List Char} {t : Trivia}
    (h : t.StandsIn first text) : t.span.startLine ≤ first + text.count '\n' := by
  obtain ⟨k, hk, hstands⟩ := h
  exact hk ▸ Nat.add_le_add_left hstands.le_count first

end Trivia

namespace Comment

open Outcome Trivia

/-! ### Runs of documentation lines -/

theorem standsOn_lineParts {line : Nat} {column : Int} {text : List Char} (hline : '\n' ∉ text)
    {t : Trivia} (h : t ∈ lineParts line column text) :
    t.span.startLine = line ∧ StandsOn text 0 t.text.toList := by
  have htrim : trimRight (· = '\r') text <:+: text := (isPrefix_trimRight _ text).isInfix
  unfold lineParts at h
  dsimp only at h
  split at h
  · cases h
  · rename_i before hfound
    have hmark : lineMark <:+: text :=
      ((prefix_of_find? hfound).isInfix.trans (List.drop_suffix _ _).isInfix).trans htrim
    have hbody : (trimRight (· = '\r') text).drop (before + 3) <:+: text :=
      (List.drop_suffix _ _).isInfix.trans htrim
    split at h
    · obtain rfl := List.mem_singleton.1 h
      exact ⟨rfl, .of_isInfix hline (by rwa [Trivia.text, String.toList_ofList])⟩
    · rcases List.mem_cons.1 h with rfl | h
      · exact ⟨rfl, .of_isInfix hline (by rwa [Trivia.text, String.toList_ofList])⟩
      · obtain rfl := List.mem_singleton.1 h
        exact ⟨rfl, .of_isInfix hline (by rwa [Trivia.text, String.toList_ofList])⟩

/-- **The parts of a run of lines** stand on the lines that they say. -/
theorem standsIn_runParts {line : Nat} {column : Int} {lines : List (List Char)}
    (hlines : ∀ text ∈ lines, '\n' ∉ text) {t : Trivia} (h : t ∈ runParts line column lines) :
    t.StandsIn line (joinWith '\n' lines) := by
  induction lines generalizing line column with
  | nil => cases h
  | cons text rest ih =>
    have htext : '\n' ∉ text := hlines text List.mem_cons_self
    have hcount : (text ++ ['\n']).count '\n' = 1 := by
      rw [List.count_append, List.count_eq_zero.2 htext]
      rfl
    -- The first line comes first, and the other lines come behind the line feed that ends it.
    have hfirst : ∃ back, joinWith '\n' (text :: rest) = [] ++ (text ++ back) := by
      cases rest with
      | nil => exact ⟨[], (List.append_nil text).symm⟩
      | cons _ _ => exact ⟨_, rfl⟩
    have hrest : rest ≠ [] →
        joinWith '\n' (text :: rest) = (text ++ ['\n']) ++ (joinWith '\n' rest ++ []) := by
      intro hne
      obtain ⟨next, more, rfl⟩ := List.exists_cons_of_ne_nil hne
      rw [List.append_nil, List.append_assoc]
      rfl
    rw [runParts, List.mem_append] at h
    rcases h with h | h
    · obtain ⟨hstart, hstands⟩ := standsOn_lineParts htext h
      obtain ⟨back, hback⟩ := hfirst
      exact ⟨0, hstart, hback ▸ hstands.within [] back⟩
    · have hne : rest ≠ [] := by
        rintro rfl
        cases h
      obtain ⟨k, hstart, hstands⟩ := ih (fun s hs ↦ hlines s (List.mem_cons_of_mem _ hs)) h
      refine ⟨1 + k, by rw [hstart, Nat.add_assoc], ?_⟩
      rw [hrest hne, ← hcount]
      exact hstands.within _ _

theorem linesRise_runParts {line : Nat} {column : Int} {lines : List (List Char)}
    (hlines : ∀ text ∈ lines, '\n' ∉ text) : LinesRise (runParts line column lines) := by
  induction lines generalizing line column with
  | nil => exact .nil
  | cons text rest ih =>
    have htext : '\n' ∉ text := hlines text List.mem_cons_self
    have hrest : ∀ s ∈ rest, '\n' ∉ s := fun s hs ↦ hlines s (List.mem_cons_of_mem _ hs)
    rw [runParts, LinesRise, List.pairwise_append]
    refine ⟨linesRise_of_forall_eq fun t ht ↦ (standsOn_lineParts htext ht).1, ih hrest, ?_⟩
    intro a ha b hb
    have hstart := (standsOn_lineParts htext ha).1
    have hnext := (standsIn_runParts hrest hb).le_startLine
    omega

/-! ### Documentation blocks -/

/-- The delimiter that starts a block stands where the block starts. -/
theorem standsOn_open {text : List Char} (hopen : blockOpen.isPrefixOf text) :
    StandsOn text 0 blockOpen := by
  obtain ⟨rest, rfl⟩ := List.isPrefixOf_iff_prefix.1 hopen
  exact ⟨[], rest, rfl, rfl⟩

/-- The text between the delimiters of a block stands behind the first of them. -/
theorem standsOn_body {text : List Char} (hopen : blockOpen.isPrefixOf text) :
    StandsOn text 0 (blockBody text) := by
  obtain ⟨rest, rfl⟩ := List.isPrefixOf_iff_prefix.1 hopen
  have hbody : blockBody (blockOpen ++ rest) <+: rest := by
    rw [blockBody]
    split
    · exact List.take_prefix _ _
    · exact List.prefix_refl _
  obtain ⟨back, hback⟩ := hbody
  exact ⟨blockOpen, back, by rw [hback], rfl⟩

/-- The delimiter that ends a block stands on its last line. -/
theorem standsOn_close {text : List Char} (hclosed : isClosed text = true) :
    StandsOn text (text.count '\n') blockClose := by
  rw [isClosed, Bool.and_eq_true] at hclosed
  obtain ⟨front, rfl⟩ := List.isSuffixOf_iff_suffix.1 hclosed.1
  refine ⟨front, [], by rw [List.append_nil], ?_⟩
  rw [List.count_append]
  rfl

/-- **The items in a documentation block** stand on the lines that they say, and these rise: the
first parts stand where the block starts, the last one where it ends. -/
theorem standsIn_docBlock {text : String} {span : Span} {t : Trivia}
    (hopen : blockOpen.isPrefixOf text.toList) (h : docBlock text span = .ok t)
    (hspan : span.endLine = span.startLine + text.toList.count '\n') :
    (∀ p ∈ t.children, p.StandsIn span.startLine text.toList) ∧ LinesRise t.children := by
  obtain ⟨body, hbody, rfl⟩ := map_eq_ok_iff.1 h
  have hstart : ∀ p ∈ openingPart span :: body,
      p.span.startLine = span.startLine ∧ StandsOn text.toList 0 p.text.toList := by
    intro p hp
    rcases List.mem_cons.1 hp with rfl | hp
    · refine ⟨rfl, ?_⟩
      rw [openingPart, Trivia.text, String.toList_ofList]
      exact standsOn_open hopen
    · rw [bodyParts] at hbody
      split at hbody
      · cases hbody
        cases hp
      · obtain ⟨s, hs, rfl⟩ := map_eq_ok_iff.1 hbody
        obtain rfl := List.mem_singleton.1 hp
        refine ⟨?_, ?_⟩
        · have hrow := congrArg Point.row (Span.between?_eq_ok hs).1
          exact Int.ofNat_inj.1 hrow
        · rw [Trivia.text, String.toList_ofList]
          exact standsOn_body hopen
  have hend : ∀ p ∈ closingPart text.toList span,
      p.span.startLine = span.endLine ∧
        StandsOn text.toList (text.toList.count '\n') p.text.toList := by
    intro p hp
    rw [closingPart] at hp
    split at hp
    · rename_i hclosed
      obtain rfl := List.mem_singleton.1 hp
      refine ⟨rfl, ?_⟩
      rw [Trivia.text, String.toList_ofList]
      exact standsOn_close hclosed
    · cases hp
  refine ⟨fun p hp ↦ ?_, List.pairwise_append.2 ⟨?_, ?_, fun a ha b hb ↦ ?_⟩⟩
  · rcases List.mem_append.1 hp with hp | hp
    · exact ⟨0, hstart p hp⟩
    · obtain ⟨hline, hstands⟩ := hend p hp
      exact ⟨_, hline.trans hspan, hstands⟩
  · exact linesRise_of_forall_eq fun p hp ↦ (hstart p hp).1
  · exact linesRise_of_forall_eq fun p hp ↦ (hend p hp).1
  · have hfirst := (hstart a ha).1
    have hlast := (hend b hb).1
    omega

/-! ### All items -/

/-- The parts of a comment have no parts, so that an item is the comment or one of its parts. -/
theorem items_of_classify {language : Language} {text : String} {span : Span} {t : Trivia}
    (h : classify language text span = .ok t) : t.items = t :: t.children := by
  have hparts := (isPart_of_classify h).2
  have hitems : ∀ p ∈ t.children, p.items = [p] := by
    intro p hp
    rw [items_eq_cons, (hparts p hp).1]
    rfl
  rw [items_eq_cons, List.flatMap_congr hitems, List.flatMap_singleton']

/-- **Every item in a comment stands on the line that it says**, and these lines rise, if the span
of the comment has as many line ends as its text. -/
theorem standsIn_of_classify {language : Language} {text : String} {span : Span} {t : Trivia}
    (h : classify language text span = .ok t)
    (hspan : span.endLine = span.startLine + text.toList.count '\n') :
    (∀ item ∈ t.items, item.StandsIn span.startLine text.toList) ∧ LinesRise t.items := by
  obtain ⟨htext, hat⟩ := classify_eq_ok h
  have hself : t.StandsIn span.startLine text.toList :=
    ⟨0, by rw [hat]; rfl, by rw [htext]; exact .self _⟩
  have hchildren : (∀ p ∈ t.children, p.StandsIn span.startLine text.toList) ∧
      LinesRise t.children := by
    rcases classify_cases h with rfl | ⟨hopen, hblock⟩ | ⟨kind, -, rfl⟩
    · have hlines : ∀ line ∈ splitOn '\n' text.toList, '\n' ∉ line :=
        fun line hline ↦ not_mem_of_mem_splitOn hline
      refine ⟨fun p hp ↦ ?_, linesRise_runParts hlines⟩
      have hstands := standsIn_runParts hlines hp
      rwa [joinWith_splitOn] at hstands
    · exact standsIn_docBlock hopen hblock hspan
    · exact ⟨fun p hp ↦ absurd hp List.not_mem_nil, .nil⟩
  rw [items_of_classify h]
  refine ⟨List.forall_mem_cons.2 ⟨hself, hchildren.1⟩, List.pairwise_cons.2 ⟨?_, hchildren.2⟩⟩
  intro p hp
  rw [hat]
  exact (hchildren.1 p hp).le_startLine

end Comment

end CommentScope
