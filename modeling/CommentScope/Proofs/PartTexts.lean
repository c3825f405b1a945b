import CommentScope.Proofs.CommentParts
import CommentScope.Proofs.Placement

/-!
# What a documentation comment is split into

Splitting a comment into delimiters and text loses none of its text. The parts of a documentation
block are together the block (`Comment.SplitsBlock`). A line of documentation is what stands before
its delimiter, its parts, and the carriage returns at its end (`Comment.SplitsLine`); a run of them
is split line by line. All this, and when classifying fails, is `Comment.classify_splits`.
-/

namespace CommentScope

/-! ### Finding and trimming -/

namespace Text

variable {part cs tail : List Char}

/-- What is found is found where it occurs first. -/
theorem not_prefix_drop_of_find? {n : Nat} (h : find? part cs = some n) :
    ∀ m < n, ¬ part <+: cs.drop m := by
  induction cs generalizing n with
  | nil =>
    rw [find?, Option.ite_none_right_eq_some] at h
    cases h.2
    exact fun m hm ↦ absurd hm (Nat.not_lt_zero m)
  | cons c cs ih =>
    rw [find?] at h
    split at h
    · cases h
      exact fun m hm ↦ absurd hm (Nat.not_lt_zero m)
    · rename_i hhead
      obtain ⟨k, hk, rfl⟩ := Option.map_eq_some_iff.1 h
      intro m hm
      cases m with
      | zero => exact fun hprefix ↦ hhead (List.isPrefixOf_iff_prefix.2 hprefix)
      | succ m => exact ih hk m (Nat.lt_of_succ_lt_succ hm)

/-- What is not found does not occur. -/
theorem not_infix_of_find?_eq_none (h : find? part cs = none) : ¬ part <:+: cs := by
  induction cs with
  | nil =>
    rw [find?] at h
    rintro hinfix
    rw [List.infix_nil.1 hinfix] at h
    cases h
  | cons c cs ih =>
    rw [find?] at h
    split at h
    · cases h
    · rename_i hhead
      rw [List.infix_cons_iff, not_or]
      exact ⟨fun hprefix ↦ hhead (List.isPrefixOf_iff_prefix.2 hprefix),
        ih (Option.map_eq_none_iff.1 h)⟩

/-- What starts a text starts it without a tail of other characters. -/
theorem prefix_of_prefix_append (h : part <+: cs ++ tail) (htail : ∀ c ∈ tail, c ∉ part) :
    part <+: cs := by
  obtain ⟨back, hback⟩ := h
  rcases List.append_eq_append_iff.1 hback with ⟨as, rfl, -⟩ | ⟨bs, rfl, rfl⟩
  · exact List.prefix_append part as
  · cases bs with
    | nil => simp
    | cons b bs => exact absurd (by simp) (htail b (by simp))

/-- Trimming takes away a tail of the characters that are trimmed, and leaves none at the end. -/
theorem exists_trimRight (p : Char → Bool) (cs : List Char) :
    ∃ tail, cs = trimRight p cs ++ tail ∧ (∀ c ∈ tail, p c = true) ∧
      ∀ c ∈ (trimRight p cs).getLast?, p c = false := by
  refine ⟨(cs.reverse.takeWhile p).reverse, ?_, ?_, ?_⟩
  · rw [trimRight, ← List.reverse_append, List.takeWhile_append_dropWhile, List.reverse_reverse]
  · intro c hc
    exact List.all_eq_true.1 List.all_takeWhile c (List.mem_reverse.1 hc)
  · intro c hc
    have hhead := List.head?_dropWhile_not p cs.reverse
    rw [trimRight, List.getLast?_reverse] at hc
    rwa [Option.mem_def.1 hc] at hhead

end Text

/-! ### Lines of documentation -/

/-- What an item is, and its text. -/
def Trivia.item (t : Trivia) : Trivia.Kind × List Char := (t.kind, t.text.toList)

namespace Comment

open Outcome Text

/-- The item that the text behind a delimiter makes: none if there is no text. -/
def bodyItem (body : List Char) : List (Trivia.Kind × List Char) :=
  if body = [] then [] else [(.docCommentText, body)]

/-- Whether a line of documentation is split into the given parts. It has parts if a delimiter
stands in it: the first one, and the text behind it but for the carriage returns at the end. -/
inductive SplitsLine (line : List Char) : List Trivia → Prop
  | unmarked (absent : ¬ lineMark <:+: line) : SplitsLine line []
  | marked {before body returns : List Char} {parts : List Trivia}
      (whole : line = before ++ (lineMark ++ (body ++ returns)))
      (first : ∀ m < before.length, ¬ lineMark <+: line.drop m)
      (isReturn : ∀ c ∈ returns, c = '\r')
      (trimmed : body.getLast? ≠ some '\r')
      (items : parts.map Trivia.item = (.docCommentExterior, lineMark) :: bodyItem body) :
      SplitsLine line parts

/-- The parts of a line whose delimiter starts in the given column and has `body` behind it. -/
def partsAt (line : Nat) (column : Int) (body : List Char) : List Trivia :=
  ⟨.docCommentExterior, String.ofList lineMark, .onLine line column 3, []⟩ ::
    if body = [] then []
    else [⟨.docCommentText, String.ofList body, .onLine line (column + 3) body.length, []⟩]

theorem of_mem_partsAt {line : Nat} {column : Int} {body : List Char} {p : Trivia}
    (h : p ∈ partsAt line column body) :
    p.text.toList = lineMark ∧ p.span = .onLine line column 3 ∨
      p.text.toList = body ∧ p.span = .onLine line (column + 3) body.length := by
  rcases List.mem_cons.1 h with rfl | h
  · exact .inl ⟨String.toList_ofList, rfl⟩
  · split at h
    · cases h
    · cases List.mem_singleton.1 h
      exact .inr ⟨String.toList_ofList, rfl⟩

theorem items_partsAt (line : Nat) (column : Int) (body : List Char) :
    (partsAt line column body).map Trivia.item =
      (.docCommentExterior, lineMark) :: bodyItem body := by
  rw [partsAt, bodyItem, List.map_cons]
  split <;> simp [Trivia.item, Trivia.kind, Trivia.text]

/-- A delimiter stands in a line just where it stands in what is left of the line without the
carriage returns at its end. -/
theorem prefix_drop_of_returns {trimmed returns : List Char} (h : ∀ c ∈ returns, c = '\r') {m : Nat}
    (hmark : lineMark <+: (trimmed ++ returns).drop m) : lineMark <+: trimmed.drop m := by
  rw [List.drop_append] at hmark
  refine prefix_of_prefix_append hmark fun c hc ↦ ?_
  rw [h c (List.mem_of_mem_drop hc)]
  decide

/-- **How a line of documentation is split**: at the first delimiter in it, if there is one, and
before the carriage returns at its end. -/
theorem lineParts_cases (line : Nat) (column : Int) (text : List Char) :
    ¬ lineMark <:+: text ∧ lineParts line column text = [] ∨
      ∃ before body returns, text = before ++ (lineMark ++ (body ++ returns)) ∧
        (∀ m < before.length, ¬ lineMark <+: text.drop m) ∧ (∀ c ∈ returns, c = '\r') ∧
        body.getLast? ≠ some '\r' ∧
        lineParts line column text = partsAt line (column + (before.length : Int)) body := by
  obtain ⟨returns, hwhole, hreturns, hlast⟩ := exists_trimRight (· = '\r') text
  have hreturns : ∀ c ∈ returns, c = '\r' := fun c hc ↦ by simpa using hreturns c hc
  unfold lineParts
  generalize trimRight (· = '\r') text = trimmed at hwhole hlast ⊢
  subst hwhole
  dsimp only
  split
  · rename_i hnone
    refine .inl ⟨fun hinfix ↦ not_infix_of_find?_eq_none hnone ?_, rfl⟩
    obtain ⟨front, back, hback⟩ := hinfix
    have hprefix : lineMark <+: (trimmed ++ returns).drop front.length := by
      rw [← hback, List.append_assoc, List.drop_left]
      exact List.prefix_append lineMark back
    exact (prefix_drop_of_returns hreturns hprefix).isInfix.trans (List.drop_suffix _ _).isInfix
  · rename_i n hfound
    obtain ⟨body, hbody⟩ := prefix_of_find? hfound
    have hsplit : trimmed = trimmed.take n ++ (lineMark ++ body) := by
      rw [hbody, List.take_append_drop]
    have htake : (trimmed.take n).length = n := by
      have hlen := congrArg List.length hbody
      rw [List.length_append, List.length_drop] at hlen
      have hthree : lineMark.length = 3 := rfl
      rw [List.length_take]
      omega
    have hbehind : trimmed.drop (n + 3) = body := by
      rw [← List.drop_drop, ← hbody]
      rfl
    refine .inr ⟨trimmed.take n, body, returns, ?_, ?_, hreturns, ?_, ?_⟩
    · rw [← List.append_assoc lineMark, ← List.append_assoc, ← hsplit]
    · rw [htake]
      exact fun m hm h ↦
        not_prefix_drop_of_find? hfound m hm (prefix_drop_of_returns hreturns h)
    · intro hreturn
      have hmem : '\r' ∈ trimmed.getLast? := by
        rw [hsplit, List.getLast?_append, List.getLast?_append, hreturn]
        rfl
      have hfalse := hlast _ hmem
      simp at hfalse
    · rw [hbehind, htake, partsAt]
      cases body <;> rfl

/-- **A line is split into what stands before its delimiter, its parts and the carriage returns at
its end.** -/
theorem splitsLine_lineParts (line : Nat) (column : Int) (text : List Char) :
    SplitsLine text (lineParts line column text) := by
  rcases lineParts_cases line column text with
    ⟨habsent, hparts⟩ | ⟨before, body, returns, hwhole, hfirst, hreturns, hlast, hparts⟩
  · rw [hparts]
    exact .unmarked habsent
  · rw [hparts]
    exact .marked hwhole hfirst hreturns hlast (items_partsAt _ _ body)

/-- The parts of a line stand on it. -/
theorem onLine_lineParts {line : Nat} {column : Int} {text : List Char} {p : Trivia}
    (h : p ∈ lineParts line column text) : p.span.startLine = line ∧ p.span.endLine = line := by
  rcases lineParts_cases line column text with ⟨-, hparts⟩ | ⟨before, body, -, -, -, -, -, hparts⟩
  · rw [hparts] at h
    cases h
  · rw [hparts] at h
    rcases of_mem_partsAt h with ⟨-, hspan⟩ | ⟨-, hspan⟩ <;> rw [hspan] <;> exact ⟨rfl, rfl⟩

/-- Whether lines of documentation, numbered from `first` on, are split into the given parts, each
line into some that stand on it, in the order of the lines. -/
def SplitsLines (first : Nat) (lines : List (List Char)) (parts : List Trivia) : Prop :=
  ∃ pieces : List (List Trivia), parts = pieces.flatten ∧
    List.Forall₂ (fun line ps ↦ SplitsLine line.1 ps ∧
      ∀ p ∈ ps, p.span.startLine = line.2 ∧ p.span.endLine = line.2) (lines.zipIdx first) pieces

/-- **A run of lines is split line by line.** -/
theorem splitsLines_runParts (line : Nat) (column : Int) (lines : List (List Char)) :
    SplitsLines line lines (runParts line column lines) := by
  induction lines generalizing line column with
  | nil => exact ⟨[], rfl, .nil⟩
  | cons text rest ih =>
    obtain ⟨pieces, hparts, hpieces⟩ := ih (line + 1) 0
    refine ⟨lineParts line column text :: pieces, ?_, ?_⟩
    · rw [runParts, hparts, List.flatten_cons]
    · exact .cons ⟨splitsLine_lineParts line column text, fun p hp ↦ onLine_lineParts hp⟩ hpieces

/-! ### Documentation blocks -/

/-- Whether the text of a documentation block is split into the given parts: together they are the
text, and the end of the block is a part of its own just if it does not overlap the start. -/
structure SplitsBlock (text : List Char) (parts : List Trivia) : Prop where
  whole : parts.flatMap (fun p ↦ p.text.toList) = text
  items : ∃ body, parts.map Trivia.item = (.docCommentExterior, blockOpen) :: (bodyItem body ++
    if blockClose <:+ text ∧ 5 ≤ text.length then [(.docCommentExterior, blockClose)] else [])

theorem isClosed_iff {text : List Char} :
    isClosed text = true ↔ blockClose <:+ text ∧ 5 ≤ text.length := by
  rw [isClosed, Bool.and_eq_true, List.isSuffixOf_iff_suffix, decide_eq_true_iff]

/-- **The text between the delimiters of a block is what is left without them.** -/
theorem open_append_blockBody {text : List Char} (h : blockOpen <+: text) :
    blockOpen ++ (blockBody text ++ if isClosed text then blockClose else []) = text := by
  obtain ⟨rest, rfl⟩ := h
  rw [blockBody]
  split
  · rename_i hclosed
    obtain ⟨hsuffix, hfive⟩ := isClosed_iff.1 hclosed
    have hlen : (blockOpen ++ rest).length = rest.length + 3 := by
      rw [List.length_append, Nat.add_comm]
      rfl
    have hrest : blockClose <:+ rest := by
      refine List.suffix_of_suffix_length_le hsuffix (List.suffix_append blockOpen rest) ?_
      have htwo : blockClose.length = 2 := rfl
      omega
    obtain ⟨body, rfl⟩ := hrest
    have htake : (blockOpen ++ (body ++ blockClose)).length - 5 = body.length := by
      rw [hlen, List.length_append]
      rfl
    rw [htake]
    show blockOpen ++ ((body ++ blockClose).take body.length ++ blockClose) = _
    rw [List.take_left]
  · rw [List.append_nil]
    rfl

/-- The items of a block. -/
theorem items_docBlock {text : String} {span : Span} {t : Trivia}
    (h : docBlock text span = .ok t) :
    t.children.map Trivia.item = (.docCommentExterior, blockOpen) :: (bodyItem (blockBody
      text.toList) ++ if isClosed text.toList then [(.docCommentExterior, blockClose)] else []) := by
  obtain ⟨body, hbody, rfl⟩ := map_eq_ok_iff.1 h
  have hitem : body.map Trivia.item = bodyItem (blockBody text.toList) := by
    rw [bodyParts] at hbody
    rw [bodyItem]
    split at hbody
    · rename_i hempty
      cases hbody
      rw [if_pos (List.isEmpty_iff.1 hempty)]
      rfl
    · rename_i hfull
      obtain ⟨s, -, rfl⟩ := map_eq_ok_iff.1 hbody
      rw [if_neg fun hnil ↦ hfull (List.isEmpty_iff.2 hnil)]
      simp [Trivia.item, Trivia.kind, Trivia.text]
  have hclosing : (closingPart text.toList span).map Trivia.item =
      if isClosed text.toList then [(.docCommentExterior, blockClose)] else [] := by
    rw [closingPart]
    split <;> simp [Trivia.item, Trivia.kind, Trivia.text]
  rw [Trivia.children, List.cons_append, List.map_cons, List.map_append, hitem, hclosing]
  simp [openingPart, Trivia.item, Trivia.kind, Trivia.text]

/-- **The parts of a block are together the block.** -/
theorem splitsBlock_docBlock {text : String} {span : Span} {t : Trivia}
    (hblock : isDocBlock text.toList = true) (h : docBlock text span = .ok t) :
    SplitsBlock text.toList t.children := by
  have hitems := items_docBlock h
  refine ⟨?_, blockBody text.toList, ?_⟩
  · have hopen : blockOpen <+: text.toList := by
      rw [isDocBlock, Bool.and_eq_true] at hblock
      exact List.isPrefixOf_iff_prefix.1 hblock.1
    have htexts : t.children.flatMap (fun p ↦ p.text.toList) =
        (t.children.map Trivia.item).flatMap Prod.snd := by
      rw [List.flatMap_map]
      rfl
    refine Eq.trans ?_ (open_append_blockBody hopen)
    rw [htexts, hitems, List.flatMap_cons, List.flatMap_append, bodyItem]
    congr 2
    · split
      · rename_i hnil
        rw [hnil]
        rfl
      · exact List.append_nil _
    · split <;> rfl
  · simp only [hitems, isClosed_iff]

end Comment

/-! ### When classifying fails -/

/-- Whether a point is before another. -/
def Point.Precedes (a b : Point) : Prop := a.row < b.row ∨ a.row = b.row ∧ a.column < b.column

/-- Rows that count from zero delimit a span unless the end precedes the start. -/
theorem Span.between?_eq_error_iff {a b : Point} (ha : 0 ≤ a.row) (hb : 0 ≤ b.row)
    {e : Span.Fault} : Span.between? a b = .error e ↔ e = .endBeforeStart ∧ b.Precedes a := by
  have hneg : ¬ (a.row < 0 ∨ b.row < 0) := by omega
  rw [Span.between?, if_neg hneg, Point.Precedes]
  split
  · constructor
    · intro h
      cases h
    · rintro ⟨-, h⟩
      omega
  · rw [Except.error.injEq, eq_comm, iff_self_and]
    omega

/-- Whether a span is that of a text which stands behind other text. -/
def Span.CoversAt (front text : List Char) (s : Span) : Prop :=
  (Cursor.origin.skip front).point = s.start ∧ (Cursor.origin.skip (front ++ text)).point = s.stop

/-- Whether a span is that of a text at a place in a source. -/
def Span.Covers (source text : String) (s : Span) : Prop :=
  ∃ front back, source.toList = front ++ (text.toList ++ back) ∧ s.CoversAt front text.toList

/-- A span that stays on one line is as wide as its text has octets. -/
theorem Span.CoversAt.startColumn_add {front text : List Char} {s : Span}
    (h : s.CoversAt front text) (hline : s.startLine = s.endLine) :
    s.startColumn + ((Utf8.encode text).length : Int) = s.endColumn := by
  obtain ⟨hstart, hstop⟩ := h
  rw [Cursor.skip_append] at hstop
  generalize Cursor.origin.skip front = p at hstart hstop
  obtain ⟨hrow, hcolumn⟩ := Point.mk.inj hstart
  obtain ⟨hrow', hcolumn'⟩ := Point.mk.inj hstop
  have hnone : text.count '\n' = 0 := by
    have hskip := p.row_skip text
    omega
  rw [p.column_skip hnone] at hcolumn'
  omega

namespace Comment

open Outcome Text

/-- A block has no place for the text between its delimiters if that ends before it starts. -/
theorem docBlock_eq_error_iff {text : String} {span : Span} {e : Span.Fault} :
    docBlock text span = .error e ↔ blockBody text.toList ≠ [] ∧ e = .endBeforeStart ∧
      Point.Precedes ⟨span.endLine, bodyEndColumn text.toList span⟩
        ⟨span.startLine, span.startColumn + 3⟩ := by
  rw [docBlock, map_eq_error_iff, bodyParts]
  split
  · rename_i hempty
    simp [List.isEmpty_iff.1 hempty]
  · rename_i hfull
    rw [map_eq_error_iff, Span.between?_eq_error_iff (Int.natCast_nonneg _) (Int.natCast_nonneg _),
      and_iff_right fun hnil ↦ hfull (List.isEmpty_iff.2 hnil)]

section

variable {language : Language} {text : String} {span : Span}

theorem classify_of_isDocLine (hl : language = .csharp ∨ language = .java)
    (h : isDocLine text.toList = true) : classify language text span = .ok (docLines text span) := by
  rcases hl with rfl | rfl <;> exact if_pos h

/-- A documentation block is no line of documentation. -/
theorem isDocLine_of_isDocBlock {cs : List Char} (h : isDocBlock cs = true) :
    isDocLine cs = false := by
  rw [isDocBlock, Bool.and_eq_true] at h
  obtain ⟨rest, rfl⟩ := List.isPrefixOf_iff_prefix.1 h.1
  rfl

theorem classify_of_isDocBlock (hl : language = .csharp ∨ language = .java)
    (h : isDocBlock text.toList = true) : classify language text span = docBlock text span := by
  have hline : ¬ isDocLine text.toList = true := by
    rw [isDocLine_of_isDocBlock h]
    exact Bool.false_ne_true
  rcases hl with rfl | rfl <;> exact (if_neg hline).trans (if_pos h)

/-- Other comments have no parts. -/
theorem classify_of_plain (hl : language = .csharp ∨ language = .java) (span : Span)
    (hline : isDocLine text.toList = false) (hblock : isDocBlock text.toList = false) :
    ∃ kind : Trivia.Kind, kind ≠ .singleLineDocComment ∧ kind ≠ .multiLineDocComment ∧
      classify language text span = .ok ⟨kind, text, span, []⟩ := by
  have hclassify : classify language text span =
      if ['/', '*'].isPrefixOf text.toList then .ok ⟨.multiLineComment, text, span, []⟩
      else .ok ⟨.singleLineComment, text, span, []⟩ := by
    rcases hl with rfl | rfl <;> simp only [classify, hline, hblock] <;> rfl
  rw [hclassify]
  split
  · exact ⟨.multiLineComment, by decide, by decide, rfl⟩
  · exact ⟨.singleLineComment, by decide, by decide, rfl⟩

/-- Whether a comment with the given text and span is split into the parts that it should be: a
documentation block into the block, a line of documentation line by line, and other comments not at
all. -/
structure SplitsInto (text : String) (span : Span) (t : Trivia) : Prop where
  text_eq : t.text = text
  span_eq : t.span = span
  block : isDocBlock text.toList = true →
    t.kind = .multiLineDocComment ∧ SplitsBlock text.toList t.children
  lines : isDocLine text.toList = true → t.kind = .singleLineDocComment ∧
    SplitsLines span.startLine (splitOn '\n' text.toList) t.children
  plain : isDocBlock text.toList = false → isDocLine text.toList = false →
    t.kind ≠ .multiLineDocComment ∧ t.kind ≠ .singleLineDocComment ∧ t.children = []

/-- A comment with the span that it has in a source can be classified. -/
theorem exists_classify_of_covers (language : Language) {source : String}
    (h : span.Covers source text) : ∃ t, classify language text span = .ok t := by
  obtain ⟨front, back, -, hspan⟩ := h
  refine exists_classify language fun hline ↦ ?_
  have hwidth := hspan.startColumn_add hline
  have hoctets := Utf8.length_le_length_encode text.toList
  omega

/-- What classifying gives is split into the parts that it should be. -/
theorem splitsInto_of_classify (hl : language = .csharp ∨ language = .java) {t : Trivia}
    (h : classify language text span = .ok t) : SplitsInto text span t := by
  obtain ⟨htext, hspan⟩ := classify_eq_ok h
  refine ⟨htext, hspan, fun hblock ↦ ?_, fun hline ↦ ?_, fun hblock hline ↦ ?_⟩
  · rw [classify_of_isDocBlock hl hblock] at h
    have hsplits := splitsBlock_docBlock hblock h
    obtain ⟨body, -, rfl⟩ := map_eq_ok_iff.1 h
    exact ⟨rfl, hsplits⟩
  · rw [classify_of_isDocLine hl hline] at h
    cases h
    exact ⟨rfl, splitsLines_runParts _ _ _⟩
  · obtain ⟨kind, hne, hne', hclassify⟩ := classify_of_plain hl span hline hblock
    rw [hclassify] at h
    cases h
    exact ⟨hne', hne, rfl⟩

/-- **Splitting a comment loses no text.** In a language with C's comments, classifying fails just
for a documentation block whose text, if it has any, ends before it starts, going by the span; this
is not so of the span that the comment has in a source. Otherwise the comment keeps its text and its
span, and its parts make up its text. -/
theorem classify_splits (hl : language = .csharp ∨ language = .java) (text : String)
    (span : Span) :
    (∀ e, classify language text span = .error e ↔ isDocBlock text.toList = true ∧
      blockBody text.toList ≠ [] ∧ e = .endBeforeStart ∧
        Point.Precedes ⟨span.endLine, bodyEndColumn text.toList span⟩
          ⟨span.startLine, span.startColumn + 3⟩) ∧
      (∀ source, span.Covers source text → ∃ t, classify language text span = .ok t) ∧
      ∀ t, classify language text span = .ok t → SplitsInto text span t := by
  refine ⟨fun e ↦ ?_, fun source hcovers ↦ exists_classify_of_covers language hcovers,
    fun t ht ↦ splitsInto_of_classify hl ht⟩
  cases hblock : isDocBlock text.toList with
  | true => rw [classify_of_isDocBlock hl hblock, docBlock_eq_error_iff, and_iff_right rfl]
  | false =>
    cases hline : isDocLine text.toList with
    | true => simp [classify_of_isDocLine hl hline]
    | false =>
      obtain ⟨kind, -, -, hclassify⟩ := classify_of_plain hl span hline hblock
      simp [hclassify]

/-- A block without text between its delimiters, and a run of lines of which one has no text. -/
theorem classify_splits_samples :
    SplitsInto "/***/" (.onLine 0 0 5) ⟨.multiLineDocComment, "/***/", .onLine 0 0 5,
      [⟨.docCommentExterior, "/**", .onLine 0 0 3, []⟩,
        ⟨.docCommentExterior, "*/", .onLine 0 3 2, []⟩]⟩ ∧
    SplitsInto "/// a\r\n  ///" ⟨0, 2, 1, 5, by decide⟩
      ⟨.singleLineDocComment, "/// a\r\n  ///", ⟨0, 2, 1, 5, by decide⟩,
        [⟨.docCommentExterior, "///", .onLine 0 2 3, []⟩,
          ⟨.docCommentText, " a", .onLine 0 5 2, []⟩,
          ⟨.docCommentExterior, "///", .onLine 1 2 3, []⟩]⟩ :=
  ⟨(classify_splits (.inl rfl) _ _).2.2 _ rfl, (classify_splits (.inr rfl) _ _).2.2 _ rfl⟩

end

end Comment

end CommentScope
