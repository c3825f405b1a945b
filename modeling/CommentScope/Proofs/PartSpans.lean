import CommentScope.Proofs.PartTexts
import CommentScope.Proofs.PathText

/-!
# Where the parts of documentation comments stand

A parser counts columns in octets. The parts of a documentation block keep to that: the span of each
of them delimits its text in the source. For lines of documentation the columns of parts are found
by adding numbers of characters to the column at which the comment, or the line, starts. So a part
stands where its span says only if all characters before it on the line, and its own, take one octet
each; otherwise its span lies too far to the left. All this is `Comment.classify_spans`, and
`Comment.classify_spans_accented` shows a line with an accent in it.

Either way the parts lie within the comment.
-/

namespace CommentScope

/-! ### Columns in characters -/

/-- The point behind some characters on a line, if each of them takes one column. -/
def Point.over (p : Point) (cs : List Char) : Point := ⟨p.row, p.column + (cs.length : Int)⟩

/-- Whether a span lies within another one. -/
def Span.Within (s outer : Span) : Prop :=
  ¬ s.start.Precedes outer.start ∧ ¬ outer.stop.Precedes s.stop

namespace Utf8

/-- A text has as many octets as characters just if each character takes one octet. -/
theorem length_encode_eq_iff {cs : List Char} :
    (encode cs).length = cs.length ↔ ∀ c ∈ cs, c.utf8Size = 1 := by
  induction cs with
  | nil => simp [encode]
  | cons c cs ih =>
    have hle := length_le_length_encode cs
    have hpos := c.utf8Size_pos
    rw [encode_cons, List.length_append, String.length_utf8EncodeChar, List.length_cons,
      List.forall_mem_cons, ← ih]
    omega

end Utf8

namespace Cursor

/-- The place behind characters on one line. -/
theorem point_skip_line (k : Cursor) {cs : List Char} (h : '\n' ∉ cs) :
    (k.skip cs).point = ⟨k.row, k.column + (Utf8.encode cs).length⟩ := by
  have hnone : cs.count '\n' = 0 := List.count_eq_zero.2 h
  rw [point, k.column_skip hnone, k.row_skip, hnone]
  rfl

/-- **Counting characters instead of octets gives the same column** just if each of them takes one
octet. -/
theorem skip_eq_over_iff (k : Cursor) {cs : List Char} (h : '\n' ∉ cs) :
    (k.skip cs).point = k.point.over cs ↔ ∀ c ∈ cs, c.utf8Size = 1 := by
  rw [k.point_skip_line h, Point.over, ← Utf8.length_encode_eq_iff, Point.mk.injEq]
  simp only [point, true_and]
  omega

/-- Counting characters never gives a later place. -/
theorem not_precedes_over (k : Cursor) {cs : List Char} (h : '\n' ∉ cs) :
    ¬ (k.skip cs).point.Precedes (k.point.over cs) := by
  have hle := Utf8.length_le_length_encode cs
  rw [k.point_skip_line h, Point.over, Point.Precedes]
  simp only [point]
  omega

/-- A later place does not precede an earlier one. -/
theorem not_precedes_skip (k : Cursor) (cs : List Char) :
    ¬ (k.skip cs).point.Precedes k.point := by
  have hrow := k.row_skip cs
  rw [Point.Precedes]
  simp only [point]
  rcases Nat.eq_zero_or_pos (cs.count '\n') with hnone | hpos
  · have hcolumn := k.column_skip hnone
    omega
  · omega

end Cursor

theorem Point.not_precedes_trans {a b c : Point} (h : ¬ b.Precedes a) (h' : ¬ c.Precedes b) :
    ¬ c.Precedes a := by
  simp only [Precedes] at *
  omega

namespace Comment

open Outcome Text

/-! ### Lines of documentation -/

theorem stop_onLine (line : Nat) (column : Int) (front cs : List Char) :
    (Span.onLine line (column + (front.length : Int)) cs.length).stop =
      Point.over ⟨line, column⟩ (front ++ cs) := by
  rw [Point.over, List.length_append, Int.natCast_add, ← Int.add_assoc]
  rfl

/-- A part of a line stands behind some of its characters, and its columns count these. -/
theorem over_of_mem_lineParts {line : Nat} {column : Int} {text : List Char} {p : Trivia}
    (h : p ∈ lineParts line column text) :
    ∃ lead after, text = lead ++ (p.text.toList ++ after) ∧
      p.span.start = Point.over ⟨line, column⟩ lead ∧
      p.span.stop = Point.over ⟨line, column⟩ (lead ++ p.text.toList) := by
  rcases lineParts_cases line column text with
    ⟨-, hparts⟩ | ⟨before, body, returns, hwhole, -, -, -, hparts⟩
  · rw [hparts] at h
    cases h
  · rw [hparts] at h
    rcases of_mem_partsAt h with ⟨htext, hspan⟩ | ⟨htext, hspan⟩
    · rw [htext, hspan]
      exact ⟨before, body ++ returns, hwhole, rfl, stop_onLine line column before lineMark⟩
    · have hcolumn : column + (before.length : Int) + 3 =
          column + ((before ++ lineMark).length : Int) := by
        rw [List.length_append, Int.natCast_add, ← Int.add_assoc]
        rfl
      rw [htext, hspan, hcolumn]
      refine ⟨before ++ lineMark, returns, ?_, rfl, stop_onLine line column _ body⟩
      rw [hwhole, List.append_assoc]

/-- **A part of a run stands on one of its lines**, and its columns count characters from the start
of this line on, or from the start of the run. -/
theorem over_of_mem_runParts {k : Cursor} {lines : List (List Char)}
    (hlines : ∀ text ∈ lines, '\n' ∉ text) {p : Trivia}
    (h : p ∈ runParts k.row k.column lines) :
    ∃ front lead after, joinWith '\n' lines = front ++ (lead ++ (p.text.toList ++ after)) ∧
      (front = [] ∨ ['\n'] <:+ front) ∧ '\n' ∉ lead ++ p.text.toList ∧
      p.span.start = (k.skip front).point.over lead ∧
      p.span.stop = (k.skip front).point.over (lead ++ p.text.toList) := by
  induction lines generalizing k with
  | nil => cases h
  | cons text rest ih =>
    obtain ⟨htext, hrest⟩ := List.forall_mem_cons.1 hlines
    rw [runParts, List.mem_append] at h
    rcases h with h | h
    · obtain ⟨lead, after, rfl, hstart, hstop⟩ := over_of_mem_lineParts h
      have hjoined : ∃ back, joinWith '\n' ((lead ++ (p.text.toList ++ after)) :: rest) =
          lead ++ (p.text.toList ++ back) := by
        cases rest with
        | nil => exact ⟨after, rfl⟩
        | cons next more =>
          refine ⟨after ++ '\n' :: joinWith '\n' (next :: more), ?_⟩
          rw [joinWith_cons_cons]
          simp only [List.append_assoc]
      obtain ⟨back, hback⟩ := hjoined
      rw [← List.append_assoc, List.mem_append, not_or] at htext
      exact ⟨[], lead, back, hback, .inl rfl, htext.1, hstart, hstop⟩
    · obtain ⟨next, more, rfl⟩ : ∃ next more, rest = next :: more := by
        cases rest with
        | nil => cases h
        | cons next more => exact ⟨next, more, rfl⟩
      -- The next line starts behind the line feed, in the first column.
      have hskip : k.skip (text ++ ['\n']) = ⟨(k.skip text).offset + 1, k.row + 1, 0⟩ := by
        rw [Cursor.skip_append]
        show Cursor.next (k.skip text) '\n' = _
        rw [Cursor.next, if_pos rfl, k.row_skip, List.count_eq_zero.2 htext]
      have h' : p ∈ runParts (k.skip (text ++ ['\n'])).row (k.skip (text ++ ['\n'])).column
          (next :: more) := by
        rw [hskip]
        exact h
      obtain ⟨front, lead, after, hwhole, hfront, hline, hstart, hstop⟩ := ih hrest h'
      refine ⟨(text ++ ['\n']) ++ front, lead, after, ?_, .inr ?_, hline, ?_, ?_⟩
      · show text ++ '\n' :: joinWith '\n' (next :: more) = _
        rw [hwhole]
        simp
      · rcases hfront with rfl | hfront
        · rw [List.append_nil]
          exact List.suffix_append text ['\n']
        · exact hfront.trans (List.suffix_append _ front)
      · rw [Cursor.skip_append, hstart]
      · rw [Cursor.skip_append, hstop]

/-! ### Documentation blocks -/

/-- The text between the delimiters of a block ends where the block says. -/
theorem point_skip_blockBody {text : List Char} {span : Span} {front : List Char}
    (hopen : blockOpen <+: text) (h : span.CoversAt front text) :
    (Cursor.origin.skip (front ++ (blockOpen ++ blockBody text))).point =
      ⟨span.endLine, bodyEndColumn text span⟩ := by
  have hstop := h.2
  rw [← open_append_blockBody hopen, ← List.append_assoc, ← List.append_assoc,
    Cursor.skip_append] at hstop
  rw [bodyEndColumn, ← List.append_assoc]
  generalize Cursor.origin.skip (front ++ blockOpen ++ blockBody text) = k at hstop ⊢
  cases hclosed : isClosed text with
  | true =>
    rw [hclosed, if_pos rfl, k.point_skip_line (by decide)] at hstop
    obtain ⟨hrow, hcolumn⟩ := Point.mk.inj hstop
    have htwo : (Utf8.encode blockClose).length = 2 := by decide +kernel
    rw [htwo] at hcolumn
    rw [Cursor.point, hrow, if_pos rfl]
    congr 1
    omega
  | false =>
    rw [hclosed] at hstop
    exact hstop

/-- **The spans of the parts of a block are those of their texts.** -/
theorem coversAt_of_mem_docBlock {text : String} {span : Span} {front : List Char} {t p : Trivia}
    (hblock : isDocBlock text.toList = true) (h : docBlock text span = .ok t)
    (hspan : span.CoversAt front text.toList) (hp : p ∈ t.children) :
    ∃ before after, text.toList = before ++ (p.text.toList ++ after) ∧
      p.span.CoversAt (front ++ before) p.text.toList := by
  have hopen : blockOpen <+: text.toList := by
    rw [isDocBlock, Bool.and_eq_true] at hblock
    exact List.isPrefixOf_iff_prefix.1 hblock.1
  have hwhole := open_append_blockBody hopen
  have hstart : (Cursor.origin.skip (front ++ blockOpen)).point =
      ⟨span.startLine, span.startColumn + 3⟩ := by
    obtain ⟨hrow, hcolumn⟩ := Point.mk.inj hspan.1
    have hthree : (Utf8.encode blockOpen).length = 3 := by decide +kernel
    rw [Cursor.skip_append, Cursor.point_skip_line _ (by decide), hthree, hrow, hcolumn]
    rfl
  have hstop := point_skip_blockBody hopen hspan
  obtain ⟨body, hbody, rfl⟩ := map_eq_ok_iff.1 h
  rcases List.mem_append.1 hp with hp | hp
  · rcases List.mem_cons.1 hp with rfl | hp
    · rw [show (openingPart span).text.toList = blockOpen from String.toList_ofList]
      refine ⟨[], _, hwhole.symm, ?_, ?_⟩
      · rw [List.append_nil]
        exact hspan.1
      · rw [List.append_nil]
        exact hstart
    · rw [bodyParts] at hbody
      split at hbody
      · cases hbody
        cases hp
      · obtain ⟨s, hs, rfl⟩ := map_eq_ok_iff.1 hbody
        obtain ⟨hs, hs'⟩ := Span.between?_eq_ok hs
        cases List.mem_singleton.1 hp
        simp only [Trivia.text, Trivia.span, String.toList_ofList, Span.CoversAt]
        refine ⟨blockOpen, _, hwhole.symm, hstart.trans hs.symm, ?_⟩
        rw [List.append_assoc]
        exact hstop.trans hs'.symm
  · rw [closingPart] at hp
    split at hp
    · rename_i hclosed
      cases List.mem_singleton.1 hp
      simp only [Trivia.text, Trivia.span, String.toList_ofList, Span.CoversAt]
      rw [hclosed, if_pos rfl, ← List.append_assoc] at hwhole
      rw [bodyEndColumn, if_pos hclosed] at hstop
      refine ⟨blockOpen ++ blockBody text.toList, [], ?_, hstop, ?_⟩
      · rw [List.append_nil, hwhole]
      · have hend : span.endColumn - 2 + ((2 : Nat) : Int) = span.endColumn := by omega
        rw [List.append_assoc, hwhole, hspan.2]
        exact congrArg (Point.mk span.endLine) hend.symm
    · cases hp

/-! ### All parts -/

/-- Whether a part of lines of documentation stands behind `front` and `lead` in a source, where
`front` ends before its line or before the comment, and its columns count characters from there on.
-/
structure CountsCharacters (source : String) (outer : Span) (front lead : List Char) (p : Trivia) :
    Prop where
  whole : ∃ back, source.toList = front ++ (lead ++ (p.text.toList ++ back))
  lineStart : (Cursor.origin.skip front).point = outer.start ∨ ['\n'] <:+ front
  onLine : '\n' ∉ lead ++ p.text.toList
  start : p.span.start = (Cursor.origin.skip front).point.over lead
  stop : p.span.stop = (Cursor.origin.skip front).point.over (lead ++ p.text.toList)

/-- **A part whose columns count characters has the span of its text** just if all characters on its
line up to its end take one octet each. -/
theorem CountsCharacters.coversAt_iff {source : String} {outer : Span} {front lead : List Char}
    {p : Trivia} (h : CountsCharacters source outer front lead p) :
    p.span.CoversAt (front ++ lead) p.text.toList ↔
      ∀ c ∈ lead ++ p.text.toList, c.utf8Size = 1 := by
  have hline := h.onLine
  have hlead : '\n' ∉ lead := fun hmem ↦ hline (List.mem_append_left _ hmem)
  rw [Span.CoversAt, h.start, h.stop, List.append_assoc, Cursor.skip_append, Cursor.skip_append,
    Cursor.skip_eq_over_iff _ hlead, Cursor.skip_eq_over_iff _ hline,
    List.forall_mem_append]
  tauto

section

variable {language : Language} {source text : String} {span : Span} {front back : List Char}

/-- The parts of lines of documentation count characters, and lie within the comment. -/
theorem countsCharacters_of_mem_docLines
    (hsource : source.toList = front ++ (text.toList ++ back))
    (hspan : span.CoversAt front text.toList) {p : Trivia}
    (hp : p ∈ (docLines text span).children) :
    p.span.Within span ∧ ∃ front lead, CountsCharacters source span front lead p := by
  obtain ⟨hrow, hcolumn⟩ := Point.mk.inj hspan.1
  have hrow : (Cursor.origin.skip front).row = span.startLine := Int.ofNat_inj.1 hrow
  have hp' : p ∈ runParts (Cursor.origin.skip front).row (Cursor.origin.skip front).column
      (splitOn '\n' text.toList) := by
    rw [hrow, hcolumn]
    exact hp
  obtain ⟨before, lead, after, hwhole, hbefore, hline, hstart, hstop⟩ :=
    over_of_mem_runParts (fun _ ↦ not_mem_of_mem_splitOn) hp'
  rw [joinWith_splitOn] at hwhole
  refine ⟨⟨?_, ?_⟩, front ++ before, lead, ?_, ?_, hline, ?_, ?_⟩
  · rw [hstart, ← hspan.1]
    refine Point.not_precedes_trans (Cursor.not_precedes_skip _ before) ?_
    simp only [Point.over, Point.Precedes]
    omega
  · have hend : span.stop = ((((Cursor.origin.skip front).skip before).skip
        (lead ++ p.text.toList)).skip after).point := by
      rw [← hspan.2, hwhole, ← Cursor.skip_append, ← Cursor.skip_append, ← Cursor.skip_append]
      simp only [List.append_assoc]
    rw [hstop, hend]
    exact Point.not_precedes_trans (Cursor.not_precedes_over _ hline)
      (Cursor.not_precedes_skip _ after)
  · exact ⟨after ++ back, by rw [hsource, hwhole]; simp only [List.append_assoc]⟩
  · rcases hbefore with rfl | hbefore
    · rw [List.append_nil]
      exact .inl hspan.1
    · exact .inr (hbefore.trans (List.suffix_append front before))
  · rw [Cursor.skip_append, hstart]
  · rw [Cursor.skip_append, hstop]

/-- The parts of a documentation block have the spans of their texts, and lie within the comment. -/
theorem covers_of_mem_docBlock (hsource : source.toList = front ++ (text.toList ++ back))
    (hspan : span.CoversAt front text.toList) (hblock : isDocBlock text.toList = true)
    {t p : Trivia} (h : docBlock text span = .ok t) (hp : p ∈ t.children) :
    p.span.Within span ∧ p.span.Covers source p.text := by
  obtain ⟨before, after, hwhole, hcovers⟩ := coversAt_of_mem_docBlock hblock h hspan hp
  refine ⟨⟨?_, ?_⟩, front ++ before, after ++ back, ?_, hcovers⟩
  · rw [← hcovers.1, ← hspan.1, Cursor.skip_append]
    exact Cursor.not_precedes_skip _ before
  · rw [← hcovers.2, ← hspan.2, hwhole, ← List.append_assoc before, ← List.append_assoc front,
      ← List.append_assoc front, Cursor.skip_append _ _ after]
    exact Cursor.not_precedes_skip _ after
  · rw [hsource, hwhole]
    simp only [List.append_assoc]

/-- **Where the parts of a documentation comment stand.** A comment with the span that it has in a
source can be classified, and its parts lie within it. The span of each part of a documentation
block is that of its text. The columns of a part of lines of documentation count characters from the
start of the comment, or of the line, on; so its span is that of its text just if all of these
characters take one octet each. -/
theorem classify_spans (hl : language = .csharp ∨ language = .java)
    (h : span.Covers source text) :
    ∃ t, classify language text span = .ok t ∧ (∀ p ∈ t.children, p.span.Within span) ∧
      (isDocBlock text.toList = true → ∀ p ∈ t.children, p.span.Covers source p.text) ∧
      (isDocLine text.toList = true → ∀ p ∈ t.children, ∃ front lead,
        CountsCharacters source span front lead p ∧
          (p.span.CoversAt (front ++ lead) p.text.toList ↔
            ∀ c ∈ lead ++ p.text.toList, c.utf8Size = 1)) := by
  obtain ⟨t, ht⟩ := exists_classify_of_covers language h
  obtain ⟨front, back, hsource, hspan⟩ := h
  refine ⟨t, ht, ?_⟩
  cases hline : isDocLine text.toList with
  | true =>
    rw [classify_of_isDocLine hl hline] at ht
    cases ht
    refine ⟨fun p hp ↦ (countsCharacters_of_mem_docLines hsource hspan hp).1, fun hblock ↦ ?_,
      fun _ p hp ↦ ?_⟩
    · rw [isDocLine_of_isDocBlock hblock] at hline
      cases hline
    · obtain ⟨-, front, lead, hcounts⟩ := countsCharacters_of_mem_docLines hsource hspan hp
      exact ⟨front, lead, hcounts, hcounts.coversAt_iff⟩
  | false =>
    cases hblock : isDocBlock text.toList with
    | true =>
      rw [classify_of_isDocBlock hl hblock] at ht
      exact ⟨fun p hp ↦ (covers_of_mem_docBlock hsource hspan hblock ht hp).1,
        fun _ p hp ↦ (covers_of_mem_docBlock hsource hspan hblock ht hp).2,
        fun h ↦ absurd h Bool.false_ne_true⟩
    | false =>
      obtain ⟨kind, -, -, hclassify⟩ := classify_of_plain hl span hline hblock
      rw [hclassify] at ht
      cases ht
      exact ⟨fun _ hp ↦ absurd hp List.not_mem_nil, fun h ↦ absurd h Bool.false_ne_true,
        fun h ↦ absurd h Bool.false_ne_true⟩

/-- On a line with an accent, the span of the text ends one octet before the text does. -/
theorem classify_spans_accented : (Span.onLine 0 0 6).Covers "/// é" "/// é" ∧
    ∃ t, classify .csharp "/// é" (.onLine 0 0 6) = .ok t ∧ ∃ p ∈ t.children,
      p.text = " é" ∧ p.span = .onLine 0 3 2 ∧ ∃ front lead,
        CountsCharacters "/// é" (.onLine 0 0 6) front lead p ∧
          ¬ p.span.CoversAt (front ++ lead) p.text.toList := by
  have hcovers : (Span.onLine 0 0 6).Covers "/// é" "/// é" := ⟨[], [], rfl, rfl, rfl⟩
  obtain ⟨t, ht, -, -, hlines⟩ := classify_spans (.inl rfl) hcovers
  have hparts : t = docLines "/// é" (.onLine 0 0 6) := by
    cases ht
    rfl
  have hp : ⟨.docCommentText, " é", .onLine 0 3 2, []⟩ ∈ t.children := by
    rw [hparts]
    exact List.mem_cons_of_mem _ List.mem_cons_self
  obtain ⟨front, lead, hcounts, hiff⟩ := hlines rfl _ hp
  refine ⟨hcovers, t, ht, _, hp, rfl, rfl, front, lead, hcounts, fun hcovers ↦ ?_⟩
  have hnarrow := hiff.1 hcovers 'é' (List.mem_append_right _ (by decide))
  revert hnarrow
  decide

end

end Comment

end CommentScope
