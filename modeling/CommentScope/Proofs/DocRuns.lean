import CommentScope.Proofs.PartTexts
import CommentScope.Proofs.PathText
import CommentScope.Proofs.SiblingRuns
import CommentScope.Proofs.TodoFindings

/-!
# The trivia of runs of documentation lines

In a tree of a source, the siblings that a node holds become one trivia for each of their runs, and
a run of documentation lines becomes structured trivia with one delimiter for each line, on the row
of that line (`Grammar.runs_become_trivia`). Two separate pieces of the program meet here: the
reader finds runs by the rows of siblings, and a comment is classified by its whole text, which is
cut into lines again. They agree because the text of a run starts like its first line
(`Block.isDocLine_text`) and is cut where its lines are joined (`Block.lines_text`). What is needed
of a parser for this is that a documentation line ends before the line does
(`Concrete.HasDocLines`).
-/

namespace CommentScope

/-! ### Rows and line feeds -/

/-- Between two places there are as many line feeds as rows. -/
theorem IsAt.row_eq {source : String} {start stop : Nat} {p q : Point} (hp : IsAt source start p)
    (hq : IsAt source stop q) (h : start ≤ stop) :
    q.row = p.row + ((Utf8.slice source.toUTF8 start stop).toList.count '\n' : Nat) := by
  obtain ⟨front, mid, back, hsource, rfl, rfl, rfl, rfl⟩ := hp.cut hq h
  rw [Utf8.slice_toUTF8 hsource, String.toList_ofList]
  exact congrArg Int.ofNat ((Cursor.origin.skip front).row_skip mid)

/-- A line gap with one line feed is cut by it in carriage returns and blanks. -/
theorem Text.eq_append_of_isLineGap {gap : List Char} (h : isLineGap gap = true)
    (hone : gap.count '\n' = 1) :
    ∃ front blanks, gap = front ++ '\n' :: blanks ∧ '\n' ∉ front ∧ '\n' ∉ blanks := by
  unfold isLineGap at h
  split at h
  · rename_i blanks
    rw [List.count_cons_self, Nat.add_eq_right] at hone
    exact ⟨[], blanks, rfl, List.not_mem_nil, List.count_eq_zero.1 hone⟩
  · rename_i blanks
    rw [List.count_cons_of_ne (by decide), List.count_cons_self, Nat.add_eq_right] at hone
    exact ⟨['\r'], blanks, rfl, by decide, List.count_eq_zero.1 hone⟩
  · cases h

namespace Comment

/-- What starts like a line of documentation still does so with a line end behind it. -/
theorem isDocLine_append {cs rest : List Char} {c : Char} (h : isDocLine cs = true) (hc : c ≠ '/') :
    isDocLine (cs ++ c :: rest) = true := by
  have hmark : ∀ text, isDocLine (lineMark ++ text) = !(['/'].isPrefixOf text) := fun _ ↦ rfl
  have hprefix := h
  rw [isDocLine, Bool.and_eq_true] at hprefix
  obtain ⟨body, rfl⟩ := List.isPrefixOf_iff_prefix.1 hprefix.1
  rw [List.append_assoc, hmark]
  rw [hmark] at h
  cases body with
  | nil => simp [List.isPrefixOf, hc.symm]
  | cons b body => simpa [List.isPrefixOf] using h

/-- The delimiters among the parts of a comment, each with the row on which it starts. -/
def marks (parts : List Trivia) : List (String × Int) :=
  (parts.filter fun p ↦ p.kind = .docCommentExterior).map fun p ↦
    (p.text, (p.span.startLine : Int))

/-- A line in which a delimiter stands has one. -/
theorem marks_of_splitsLine {line : List Char} {row : Nat} {parts : List Trivia}
    (h : SplitsLine line parts) (hmark : lineMark <:+: line)
    (hrow : ∀ p ∈ parts, p.span.startLine = row) : marks parts = [("///", (row : Int))] := by
  cases h with
  | unmarked absent => exact absurd hmark absent
  | @marked before body returns parts whole first isReturn trimmed items =>
    obtain ⟨p, ps, rfl, hp, hps⟩ := List.map_eq_cons_iff.1 items
    obtain ⟨hkind, htext⟩ := Prod.mk.inj hp
    have hrest : ps.filter (fun p ↦ p.kind = .docCommentExterior) = [] := by
      refine List.filter_eq_nil_iff.2 fun q hq ↦ ?_
      have hitem := List.mem_map_of_mem (f := Trivia.item) hq
      have hq : q.kind = .docCommentText := by
        rw [hps, bodyItem] at hitem
        split at hitem
        · cases hitem
        · exact (Prod.mk.inj (List.mem_singleton.1 hitem)).1
      simp [hq]
    have hstring : p.text = "///" := String.toList_inj.1 htext
    rw [marks, List.filter_cons, if_pos (by simp [hkind]), hrest, List.map_singleton, hstring,
      hrow p List.mem_cons_self]

/-- **Lines in which delimiters stand have one each**, on the row of the line. -/
theorem marks_of_splitsLines {row : Nat} {lines : List (List Char)} {parts : List Trivia}
    (h : SplitsLines row lines parts) (hmark : ∀ line ∈ lines, lineMark <:+: line) :
    marks parts = (lines.zipIdx row).map fun line ↦ ("///", (line.2 : Int)) := by
  obtain ⟨pieces, rfl, hpieces⟩ := h
  have hmark' : ∀ line ∈ lines.zipIdx row, lineMark <:+: line.1 := fun line hline ↦
    hmark line.1 (List.fst_mem_of_mem_zipIdx hline)
  generalize lines.zipIdx row = numbered at hpieces hmark'
  induction hpieces with
  | nil => rfl
  | @cons line piece numbered pieces hline _ ih =>
    obtain ⟨hfirst, hrest⟩ := List.forall_mem_cons.1 hmark'
    have hown := marks_of_splitsLine hline.1 hfirst fun p hp ↦ (hline.2 p hp).1
    rw [List.flatten_cons, List.map_cons, ← ih hrest, marks, List.filter_append, List.map_append]
    exact congrArg (· ++ _) hown

end Comment

/-! ### The text of a run -/

namespace Block

open Concrete Text

/-- Whether the nodes of a block are lines of documentation of a source, each of which ends before
its line does, on consecutive rows and with no more between them than a line end and blanks. -/
structure IsDocRun (source : String) (b : Block) : Prop where
  placed : b.Placed source
  lines : ∀ n ∈ b.nodes, n.isDocLine source.toUTF8 = true
  feed : ∀ n ∈ b.nodes, '\n' ∉ (n.text source.toUTF8).toList
  rows : b.nodes.IsChain fun x y ↦ y.label.start.row = x.label.stop.row + 1
  gaps : b.HasLineGaps source.toUTF8

section

variable {source : String} {n m : Concrete} {rest : List Concrete}

theorem IsDocRun.tail (h : (⟨n, m :: rest⟩ : Block).IsDocRun source) :
    (⟨m, rest⟩ : Block).IsDocRun source where
  placed := h.placed.tail
  lines d hd := h.lines d (List.mem_cons_of_mem n hd)
  feed d hd := h.feed d (List.mem_cons_of_mem n hd)
  rows := h.rows.tail
  gaps := h.gaps.tail

/-- A line of documentation has its delimiter in it. -/
theorem infix_of_isDocLine {source : ByteArray} (h : n.isDocLine source = true)
    (front back : List Char) :
    Comment.lineMark <:+: front ++ ((n.text source).toList ++ back) := by
  rw [Concrete.isDocLine, Comment.isDocLine, Bool.and_eq_true] at h
  obtain ⟨body, hbody⟩ := List.isPrefixOf_iff_prefix.1 h.1
  exact ⟨front, body ++ back, by rw [← hbody, List.append_assoc, List.append_assoc]⟩

/-- What stands between two lines of a run is cut by the one line feed in it. -/
theorem IsDocRun.eq_append (h : (⟨n, m :: rest⟩ : Block).IsDocRun source) :
    ∃ front blanks, (Utf8.slice source.toUTF8 n.label.endByte m.label.startByte).toList =
      front ++ '\n' :: blanks ∧ '\n' ∉ front ∧ '\n' ∉ blanks := by
  have hrow : m.label.start.row = n.label.stop.row + 1 := (List.isChain_cons_cons.1 h.rows).1
  have hfeeds := (h.placed.stop n List.mem_cons_self).row_eq
    (h.placed.start m (List.mem_cons_of_mem n List.mem_cons_self))
    (List.isChain_cons_cons.1 h.placed.chain).1
  exact eq_append_of_isLineGap (List.isChain_cons_cons.1 h.gaps).1 (by omega)

/-- **The text of a run is cut where its lines are joined**: it has a line for each node, with a
delimiter in it and on the row of the node. In front of the run may stand the blanks before its
first line. -/
theorem IsDocRun.lines_text {b : Block} (h : b.IsDocRun source) {front : List Char}
    (hfront : '\n' ∉ front) {row : Nat} (hrow : (row : Int) = b.first.label.start.row) :
    (∀ line ∈ splitOn '\n' (front ++ (b.text source.toUTF8).toList),
        Comment.lineMark <:+: line) ∧
      ((splitOn '\n' (front ++ (b.text source.toUTF8).toList)).zipIdx row).map
        (fun line ↦ (line.2 : Int)) = b.nodes.map fun n ↦ n.label.start.row := by
  obtain ⟨n, more⟩ := b
  induction more generalizing n front row with
  | nil =>
    have hline := infix_of_isDocLine (h.lines n List.mem_cons_self) front []
    have hfeed : '\n' ∉ front ++ (n.text source.toUTF8).toList :=
      List.mem_append.not.2 (not_or.2 ⟨hfront, h.feed n List.mem_cons_self⟩)
    have hsplit : splitOn '\n' (front ++ ((⟨n, []⟩ : Block).text source.toUTF8).toList) =
        [front ++ (n.text source.toUTF8).toList] := splitOn_of_not_mem hfeed
    rw [hsplit]
    rw [List.append_nil] at hline
    exact ⟨List.forall_mem_singleton.2 hline, congrArg (fun r : Int ↦ [r]) hrow⟩
  | cons m rest ih =>
    obtain ⟨returns, blanks, hgap, hreturns, hblanks⟩ := h.eq_append
    have hself := h.feed n List.mem_cons_self
    have hline := infix_of_isDocLine (h.lines n List.mem_cons_self) front returns
    have hfeed : '\n' ∉ front ++ ((n.text source.toUTF8).toList ++ returns) := by
      rw [List.mem_append, List.mem_append, not_or, not_or]
      exact ⟨hfront, hself, hreturns⟩
    have hsplit : splitOn '\n' (front ++ ((⟨n, m :: rest⟩ : Block).text source.toUTF8).toList) =
        (front ++ ((n.text source.toUTF8).toList ++ returns)) ::
          splitOn '\n' (blanks ++ ((⟨m, rest⟩ : Block).text source.toUTF8).toList) := by
      rw [h.placed.text_cons, String.toList_ofList, hgap, ← splitOn_append_cons hfeed]
      simp only [List.append_assoc, List.cons_append]
    have hnext : ((row + 1 : Nat) : Int) = m.label.start.row := by
      have hstay := (h.placed.start n List.mem_cons_self).row_eq
        (h.placed.stop n List.mem_cons_self) (h.placed.le n List.mem_cons_self)
      have hnone : (n.text source.toUTF8).toList.count '\n' = 0 := List.count_eq_zero.2 hself
      have hstep : m.label.start.row = n.label.stop.row + 1 := (List.isChain_cons_cons.1 h.rows).1
      rw [Concrete.text] at hnone
      rw [hnone] at hstay
      simp only at hrow
      omega
    obtain ⟨hmarks, hrows⟩ := ih hblanks m h.tail hnext
    rw [hsplit]
    exact ⟨List.forall_mem_cons.2 ⟨hline, hmarks⟩, congrArg₂ List.cons hrow hrows⟩

/-- **The text of a run starts like its first line.** -/
theorem isDocLine_text {b : Block} (hplaced : b.Placed source)
    (hgaps : b.HasLineGaps source.toUTF8)
    (hlines : b.more ≠ [] → b.first.isDocLine source.toUTF8 = true) :
    Comment.isDocLine (b.text source.toUTF8).toList = b.first.isDocLine source.toUTF8 := by
  obtain ⟨n, more⟩ := b
  cases more with
  | nil => rfl
  | cons m rest =>
    have hline := hlines (List.cons_ne_nil m rest)
    obtain ⟨e, blanks, hgap, he, -⟩ := eq_cons_of_isLineGap (List.isChain_cons_cons.1 hgaps).1
    have hne : e ≠ '/' := by rcases he with rfl | rfl <;> decide
    rw [hline, hplaced.text_cons, String.toList_ofList, hgap, List.cons_append]
    exact Comment.isDocLine_append hline hne

end

end Block

/-! ### The trivia of a run -/

/-- Whether trivia is what a run of comments has to become: it has their text, from the start of the
first to the end of the last, and their span; and it is documentation just if the run is one of
documentation lines, with a delimiter for each of them on its row. -/
structure IsTriviaOf (source : ByteArray) (run : List Concrete) (x : Trivia) : Prop where
  ends : ∃ first ∈ run.head?, ∃ last ∈ run.getLast?,
    x.text = Utf8.slice source first.label.startByte last.label.endByte ∧
      x.span.start = first.label.start ∧ x.span.stop = last.label.stop
  kind : x.kind = .singleLineDocComment ↔ ∀ n ∈ run, n.isDocLine source = true
  marks : (∀ n ∈ run, n.isDocLine source = true) →
    Comment.marks x.children = run.map fun n ↦ ("///", n.label.start.row)

namespace Concrete

/-- Whether the documentation lines of a tree are what a parser reports: a line of documentation has
no line feed in it, and between two of them that go on from each other there is a line end and blanks
only. -/
structure HasDocLines (g : Grammar) (source : ByteArray) (c : Concrete) : Prop where
  feed : ∀ n ∈ c.nodes, g.isComment n = true → n.isDocLine source = true →
    '\n' ∉ (n.text source).toList
  gap : ∀ family ∈ c.allFamilies g, ∀ run ∈ commentRuns g source family, run.IsChain fun x y ↦
    Text.isLineGap (Utf8.slice source x.label.endByte y.label.startByte).toList = true

/-- Siblings that go on from a line of documentation are lines of documentation. -/
theorem isDocLine_of_isChain {g : Grammar} {source : ByteArray} {n : Concrete}
    {more : List Concrete} (h : (n :: more).IsChain fun x y ↦ goesOn g source x y = true) :
    (more ≠ [] → n.isDocLine source = true) ∧
      ((∀ d ∈ n :: more, d.isDocLine source = true) ↔ n.isDocLine source = true) := by
  induction more generalizing n with
  | nil => simp
  | cons m rest ih =>
    obtain ⟨hgoes, htail⟩ := List.isChain_cons_cons.1 h
    simp only [goesOn, Bool.and_eq_true] at hgoes
    have hall := (ih htail).2.2 hgoes.1.2
    exact ⟨fun _ ↦ hgoes.1.1.2, fun hlines ↦ hlines n List.mem_cons_self,
      fun hn ↦ List.forall_mem_cons.2 ⟨hn, hall⟩⟩

end Concrete

namespace Block

open Concrete Outcome

variable {language : Language} {source : String} {b : Block} {x : Trivia}

/-- **A run of comments becomes what it has to become**, and what is joined to a block is found
again when its text is classified. -/
theorem isTriviaOf (hl : language = .csharp ∨ language = .java)
    (hplaced : b.Placed source) (hgaps : b.HasLineGaps source.toUTF8)
    (hgoes : b.nodes.IsChain fun x y ↦
      goesOn (.ofLanguage language) source.toUTF8 x y = true)
    (hfeed : ∀ n ∈ b.nodes, n.isDocLine source.toUTF8 = true →
      '\n' ∉ (n.text source.toUTF8).toList)
    (h : b.HasTrivia (.ofLanguage language) source.toUTF8 x) :
    IsTriviaOf source.toUTF8 b.nodes x := by
  obtain ⟨r, hr, rfl⟩ := h
  obtain ⟨span, hspan, hr⟩ := bind_eq_ok_iff.1 hr
  obtain ⟨trivia, hclassify, hr⟩ := bind_eq_ok_iff.1 hr
  cases hr
  rw [Grammar.classify_ofLanguage] at hclassify
  obtain ⟨hstart, hstop⟩ := Span.between?_eq_ok hspan
  have hsplits := Comment.splitsInto_of_classify hl hclassify
  obtain ⟨hmore, hall⟩ := isDocLine_of_isChain hgoes
  have htext := isDocLine_text hplaced hgaps hmore
  refine ⟨⟨b.first, rfl, b.last, List.getLast?_eq_some_getLast _, hsplits.text_eq, ?_, ?_⟩, ?_, ?_⟩
  · rw [hsplits.span_eq, hstart]
  · rw [hsplits.span_eq, hstop]
  · rw [Block.nodes, hall, ← htext]
    constructor
    · intro hkind
      by_contra hline
      rw [Bool.not_eq_true] at hline
      cases hblock : Comment.isDocBlock (b.text source.toUTF8).toList with
      | true =>
        have hmulti := (hsplits.block hblock).1
        rw [hkind] at hmulti
        cases hmulti
      | false => exact (hsplits.plain hblock hline).2.1 hkind
    · exact fun hline ↦ (hsplits.lines hline).1
  · intro hlines
    have hrun : b.IsDocRun source :=
      ⟨hplaced, hlines, fun n hn ↦ hfeed n hn (hlines n hn), hgoes.imp fun x y hxy ↦ by
        simp only [goesOn, Bool.and_eq_true, beq_iff_eq] at hxy
        exact hxy.2, hgaps⟩
    have hline := htext.trans (hlines b.first List.mem_cons_self)
    obtain ⟨-, hparts⟩ := hsplits.lines hline
    have hrow : (span.startLine : Int) = b.first.label.start.row := congrArg Point.row hstart
    obtain ⟨hmarks, hrows⟩ := hrun.lines_text List.not_mem_nil hrow
    rw [List.nil_append] at hmarks hrows
    rw [Comment.marks_of_splitsLines hparts hmarks]
    have hpairs := congrArg (List.map (Prod.mk "///")) hrows
    rwa [List.map_map, List.map_map] at hpairs

end Block

/-! ### Trees -/

namespace Grammar

open Annotated Concrete

variable {language : Language}

/-- The reader and the classification of comments agree on what a line of documentation is. -/
theorem isDocLine_eq (hl : language = .csharp ∨ language = .java) (source : ByteArray)
    (c : Concrete) : (ofLanguage language).isDocLine source c = c.isDocLine source := by
  rcases hl with rfl | rfl <;> rfl

/-- **Runs become trivia.** A tree of a source in a language with C's comments can be read, and
below each interior node is one trivia for each run of the siblings that the node holds, in order:
that of a run of documentation lines as long as it can be, or of a comment alone. -/
theorem runs_become_trivia (hl : language = .csharp ∨ language = .java) {source : String}
    {c : Concrete} (hc : c.Placed source)
    (hdoc : c.HasDocLines (ofLanguage language) source.toUTF8) :
    ∃ t, (ofLanguage language).tree? source.toUTF8 c = .ok t ∧
      List.Forall₂ (fun family i ↦ List.Forall₂ (IsTriviaOf source.toUTF8)
        (commentRuns (ofLanguage language) source.toUTF8 family) (t.attachedBelow i))
        (c.allFamilies (ofLanguage language)) t.interior := by
  obtain ⟨t, ht⟩ := exists_tree?_of_placed (classify_ofLanguage language) hc
  have hfamilies := forall₂_families (isDocLine_eq hl source.toUTF8) hc.rowsInOrder ht
  refine ⟨t, ht, ((List.forall₂_and_left _ _).2 ⟨fun _ h ↦ h, hfamilies⟩).imp ?_⟩
  rintro family i ⟨hfamily, hruns⟩
  obtain ⟨horder, hnodes⟩ := of_mem_allFamilies hc.ordered hfamily
  refine ((List.forall₂_and_left _ _).2 ⟨fun _ h ↦ h, hruns⟩).imp ?_
  rintro run x ⟨hrun, b, rfl, htrivia⟩
  obtain ⟨hsublist, hgoes, hcomments⟩ := of_mem_commentRuns hrun
  have hmem : ∀ n ∈ b.nodes, n ∈ c.nodes := fun n hn ↦ hnodes (hsublist.subset hn)
  have hplaced : b.Placed source :=
    { start := fun n hn ↦ hc.start n (hmem n hn)
      stop := fun n hn ↦ hc.stop n (hmem n hn)
      le := fun n hn ↦ Int.ofNat_le.1 (hc.ordered n (hmem n hn)).1
      chain := (horder.1.sublist hsublist).isChain.imp fun _ _ h ↦ Int.ofNat_le.1 h }
  exact Block.isTriviaOf hl hplaced (hdoc.gap family hfamily _ hrun) hgoes
    (fun n hn hline ↦ hdoc.feed n (hmem n hn) (hcomments n hn) hline) htrivia

/-- In the small file the two lines of documentation are one run, and the comment behind the class
is another. -/
theorem runs_become_trivia_sample : sample.Placed sampleText ∧
    sample.HasDocLines csharp sampleText.toUTF8 ∧
    (sample.allFamilies csharp).map (fun family ↦
      (commentRuns csharp sampleText.toUTF8 family).map List.length) = [[], [2, 1], [], []] ∧
    ∃ t, csharp.tree? sampleText.toUTF8 sample = .ok t ∧
      List.Forall₂ (fun family i ↦ List.Forall₂ (IsTriviaOf sampleText.toUTF8)
        (commentRuns csharp sampleText.toUTF8 family) (t.attachedBelow i))
        (sample.allFamilies csharp) t.interior := by
  have hdoc : sample.HasDocLines csharp sampleText.toUTF8 :=
    ⟨by decide +kernel, by decide +kernel⟩
  exact ⟨sample_placed, hdoc, by decide +kernel,
    runs_become_trivia (.inl rfl) sample_placed hdoc⟩

end Grammar

end CommentScope
