import CommentScope.Comment
import CommentScope.Markers
import CommentScope.Proofs.Outcome

/-!
# Parts of documentation comments

The parts of a documentation comment are delimiters and text between them, and have no parts of
their own (`Comment.isPart_of_classify`). No standard marker stands in a delimiter, and text
between delimiters is not offered to a matcher; so of all items in a comment only the comment
itself can be wanted (`Comment.wanted_items`). Classifying a comment succeeds if its span, when it
stays on one line, is at least as wide as its text has characters (`Comment.exists_classify`).
-/

namespace CommentScope

/-- Whether an item is a part of a documentation comment: a delimiter or text. -/
def Trivia.IsPart (t : Trivia) : Prop :=
  t.children = [] ∧ (t.kind = .docCommentText ∨ t.kind = .docCommentExterior ∧
    (t.text.toList = Comment.lineMark ∨ t.text.toList = Comment.blockOpen ∨
      t.text.toList = Comment.blockClose))

namespace Comment

open Outcome

/-! ### What the parts are -/

theorem isPart_of_lineParts {line : Nat} {column : Int} {text : List Char} {t : Trivia}
    (h : t ∈ lineParts line column text) : t.IsPart := by
  unfold lineParts at h
  dsimp only at h
  split at h
  · simp at h
  · split at h
    · cases List.mem_singleton.1 h
      exact ⟨rfl, .inr ⟨rfl, .inl (String.toList_ofList)⟩⟩
    · rcases List.mem_cons.1 h with rfl | h
      · exact ⟨rfl, .inr ⟨rfl, .inl (String.toList_ofList)⟩⟩
      · cases List.mem_singleton.1 h
        exact ⟨rfl, .inl rfl⟩

theorem isPart_of_runParts {line : Nat} {column : Int} {lines : List (List Char)} {t : Trivia}
    (h : t ∈ runParts line column lines) : t.IsPart := by
  induction lines generalizing line column with
  | nil => simp [runParts] at h
  | cons text rest ih =>
    rw [runParts, List.mem_append] at h
    rcases h with h | h
    · exact isPart_of_lineParts h
    · exact ih h

theorem isPart_of_bodyParts {text : List Char} {span : Span} {body : List Trivia} {t : Trivia}
    (hbody : bodyParts text span = .ok body) (h : t ∈ body) : t.IsPart := by
  unfold bodyParts at hbody
  split at hbody
  · cases hbody
    simp at h
  · obtain ⟨s, -, rfl⟩ := map_eq_ok_iff.1 hbody
    cases List.mem_singleton.1 h
    exact ⟨rfl, .inl rfl⟩

theorem isPart_of_closingPart {text : List Char} {span : Span} {t : Trivia}
    (h : t ∈ closingPart text span) : t.IsPart := by
  unfold closingPart at h
  split at h
  · cases List.mem_singleton.1 h
    exact ⟨rfl, .inr ⟨rfl, .inr (.inr String.toList_ofList)⟩⟩
  · simp at h

/-- What the trivia of a comment can be. -/
theorem classify_cases {language : Language} {text : String} {span : Span} {t : Trivia}
    (h : classify language text span = .ok t) :
    t = docLines text span ∨
      blockOpen.isPrefixOf text.toList = true ∧ docBlock text span = .ok t ∨
      ∃ kind : Trivia.Kind, kind.isComment = true ∧ t = ⟨kind, text, span, []⟩ := by
  unfold classify at h
  split at h
  · cases h
    exact .inr (.inr ⟨_, rfl, rfl⟩)
  all_goals
    dsimp only at h
    split at h
    · cases h
      exact .inl rfl
    · split at h
      · rename_i hblock
        rw [isDocBlock, Bool.and_eq_true] at hblock
        exact .inr (.inl ⟨hblock.1, h⟩)
      · split at h <;> (cases h; exact .inr (.inr ⟨_, rfl, rfl⟩))

/-- **Comments have delimiters and text as parts**, and are comments themselves. -/
theorem isPart_of_classify {language : Language} {text : String} {span : Span} {t : Trivia}
    (h : classify language text span = .ok t) :
    t.isComment = true ∧ ∀ p ∈ t.children, p.IsPart := by
  rcases classify_cases h with rfl | ⟨-, hblock⟩ | ⟨kind, hkind, rfl⟩
  · exact ⟨rfl, fun p hp ↦ isPart_of_runParts hp⟩
  · obtain ⟨body, hbody, rfl⟩ := map_eq_ok_iff.1 hblock
    refine ⟨rfl, fun p hp ↦ ?_⟩
    rcases List.mem_append.1 hp with hp | hp
    · rcases List.mem_cons.1 hp with rfl | hp
      · exact ⟨rfl, .inr ⟨rfl, .inr (.inl String.toList_ofList)⟩⟩
      · exact isPart_of_bodyParts hbody hp
    · exact isPart_of_closingPart hp
  · exact ⟨hkind, by simp [Trivia.children]⟩

/-! ### What is wanted of a comment -/

/-- A part of a documentation comment is not a wanted comment. -/
theorem not_wanted_of_isPart {p : Trivia} (h : p.IsPart) :
    (p.isComment && Markers.standard.accepts p.text) = false := by
  obtain ⟨-, hkind | ⟨-, htext⟩⟩ := h
  · rw [Trivia.isComment, hkind]
    rfl
  · have hnone : ∀ mark ∈ [lineMark, blockOpen, blockClose],
        Markers.standard.accepts (String.ofList mark) = false := by
      decide +kernel
    have hmark : Markers.standard.accepts p.text = false := by
      rw [← String.ofList_toList (s := p.text)]
      rcases htext with htext | htext | htext <;> rw [htext] <;> exact hnone _ (by simp)
    rw [hmark, Bool.and_false]

/-- **Of the items in a comment only the comment itself can be wanted.** -/
theorem wanted_items {language : Language} {text : String} {span : Span} {t : Trivia}
    (h : classify language text span = .ok t) :
    (t.items.filter fun item ↦ item.isComment && Markers.standard.accepts item.text) =
      if Markers.standard.accepts text then [t] else [] := by
  obtain ⟨hcomment, hparts⟩ := isPart_of_classify h
  have hnone : ∀ item ∈ t.children.flatMap Trivia.items,
      (item.isComment && Markers.standard.accepts item.text) = false := by
    intro item hitem
    obtain ⟨p, hp, hitem⟩ := List.mem_flatMap.1 hitem
    rw [Trivia.items_eq_cons, (hparts p hp).1] at hitem
    rw [List.mem_singleton.1 hitem]
    exact not_wanted_of_isPart (hparts p hp)
  rw [Trivia.items_eq_cons, List.filter_cons, List.filter_eq_nil_iff.2 fun item hitem ↦ by
    simp [hnone item hitem], hcomment, (classify_eq_ok h).1, Bool.true_and]

/-! ### When classifying succeeds -/

/-- The text of a documentation block has a place if the block has room for its delimiters. -/
theorem exists_bodyParts {text : List Char} {span : Span} (hopen : blockOpen.isPrefixOf text)
    (hwide : span.startLine = span.endLine →
      span.startColumn + (text.length : Int) ≤ span.endColumn) :
    ∃ body, bodyParts text span = .ok body := by
  unfold bodyParts
  split
  · exact ⟨[], rfl⟩
  · rename_i hbody
    have hthree : 3 ≤ text.length := (List.isPrefixOf_iff_prefix.1 hopen).length_le
    have hclosed : bodyEndColumn text span ≥
        span.endColumn - (if isClosed text then 2 else 0) := by
      unfold bodyEndColumn
      split <;> omega
    have hfive : isClosed text = true → 5 ≤ text.length := by
      intro hc
      rw [isClosed, Bool.and_eq_true] at hc
      exact of_decide_eq_true hc.2
    have hord : span.startLine < span.endLine ∨ span.startLine = span.endLine ∧
        span.startColumn + 3 ≤ bodyEndColumn text span := by
      rcases span.ordered with hlt | ⟨heq, -⟩
      · exact .inl hlt
      · have hw := hwide heq
        refine .inr ⟨heq, ?_⟩
        cases hc : isClosed text with
        | true =>
          have h5 := hfive hc
          rw [hc, if_pos rfl] at hclosed
          omega
        | false =>
          rw [hc, if_neg Bool.false_ne_true] at hclosed
          omega
    refine ⟨_, map_eq_ok_iff.2 ⟨⟨span.startLine, _, span.endLine, _, hord⟩,
      Span.between?_start_stop ⟨span.startLine, _, span.endLine, _, hord⟩, rfl⟩⟩

/-- **Classifying succeeds** if the span of a comment is as wide as the text, or has several lines.
-/
theorem exists_classify (language : Language) {text : String} {span : Span}
    (hwide : span.startLine = span.endLine →
      span.startColumn + (text.toList.length : Int) ≤ span.endColumn) :
    ∃ t, classify language text span = .ok t := by
  unfold classify
  split
  · exact ⟨_, rfl⟩
  all_goals
    dsimp only
    split
    · exact ⟨_, rfl⟩
    · split
      · rename_i hblock
        rw [isDocBlock, Bool.and_eq_true] at hblock
        obtain ⟨body, hbody⟩ := exists_bodyParts hblock.1 hwide
        exact ⟨_, map_eq_ok_iff.2 ⟨body, hbody, rfl⟩⟩
      · split <;> exact ⟨_, rfl⟩

end Comment

end CommentScope
