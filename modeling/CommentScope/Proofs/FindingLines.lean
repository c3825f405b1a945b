import CommentScope.Proofs.CommentLines
import CommentScope.Proofs.TodoFindings

/-!
# The lines of findings

In a tree of a source, a finding has the line on which its text starts in the source, and the lines
of findings do not fall (`Grammar.finding_lines`). This holds for comments and for the delimiters
inside them, whatever the matcher takes.

A block of the source starts on the line that its first node says and has as many line ends as lie
between its ends, so the items in it stand where they say (`Block.Placed.standsOn`). They lie
between the rows of the block, and blocks follow each other.
-/

namespace CommentScope

open Outcome

namespace Cursor

/-- The row of a cursor behind some text is the number of line feeds in it. -/
theorem row_skip_origin (cs : List Char) : (origin.skip cs).row = cs.count '\n' := by
  rw [row_skip]
  exact Nat.zero_add _

end Cursor

namespace Block

variable {g : Grammar} {language : Language} {source : String} {b : Block}

/-- **The text of a block of a source** stands on the line on which its first node starts, and ends
on the line on which its last node ends. -/
theorem Placed.standsOn_text (h : b.Placed source) {span : Span} (hspan : b.span? = .ok span) :
    Text.StandsOn source.toList span.startLine (b.text source.toUTF8).toList ∧
      span.endLine = span.startLine + (b.text source.toUTF8).toList.count '\n' := by
  have hstart := h.start b.first List.mem_cons_self
  have hstop := h.stop b.last (List.getLast_mem _)
  obtain ⟨front, mid, back, hsource, hfront, hmid, hp, hq⟩ := hstart.cut hstop h.first_le_last
  have htext : (b.text source.toUTF8).toList = mid := by
    rw [text, ← hmid, ← hfront, Utf8.slice_toUTF8 hsource, String.toList_ofList]
  obtain ⟨hfirst, hlast⟩ := Span.between?_eq_ok hspan
  have hline : span.startLine = front.count '\n' := by
    have hrow := congrArg Point.row (hfirst.trans hp.symm)
    rw [← Cursor.row_skip_origin]
    exact Int.ofNat_inj.1 hrow
  have hend : span.endLine = front.count '\n' + mid.count '\n' := by
    have hrow := congrArg Point.row (hlast.trans hq.symm)
    rw [← Cursor.row_skip_origin front, ← Cursor.row_skip]
    exact Int.ofNat_inj.1 hrow
  rw [htext, hline]
  exact ⟨⟨front, back, hsource, rfl⟩, hend⟩

/-- **The items in a block of a source** stand on the lines that they say. These lines rise, and lie
between the rows of the block. -/
theorem Placed.standsOn (h : b.Placed source) (hg : g.classify = Comment.classify language)
    {r : Remark} (hr : b.remark? g source.toUTF8 = .ok r) :
    (∀ item ∈ r.trivia.items,
      Text.StandsOn source.toList item.span.startLine item.text.toList ∧
        b.first.label.start.row ≤ item.span.startLine ∧
          (item.span.startLine : Int) ≤ b.last.label.stop.row) ∧
      Trivia.LinesRise r.trivia.items := by
  obtain ⟨span, hspan, hr⟩ := bind_eq_ok_iff.1 hr
  obtain ⟨trivia, htrivia, hr⟩ := bind_eq_ok_iff.1 hr
  cases hr
  rw [hg] at htrivia
  obtain ⟨⟨front, back, hsource, hfront⟩, hend⟩ := h.standsOn_text hspan
  obtain ⟨hitems, hrise⟩ := Comment.standsIn_of_classify htrivia hend
  obtain ⟨hfirst, hlast⟩ := Span.between?_eq_ok hspan
  refine ⟨fun item hitem ↦ ?_, hrise⟩
  have hin := hitems item hitem
  have hfrom := hin.le_startLine
  have hto := hin.startLine_le
  obtain ⟨k, hk, hstands⟩ := hin
  refine ⟨?_, ?_, ?_⟩
  · rw [hsource, hk, ← hfront]
    exact hstands.within front back
  · rw [← hfirst]
    exact Int.ofNat_le.2 hfrom
  · rw [← hlast]
    exact Int.ofNat_le.2 (hend ▸ hto)

end Block

/-- Whether a finding comes from a block of a source: its text starts on its line, and this line is
one of the block. -/
structure Finding.ComesFrom (source : String) (b : Block) (f : Finding) : Prop where
  standsOn : Text.StandsOn source.toList f.line f.content.toList
  from_first : b.first.label.start.row ≤ f.line
  to_last : (f.line : Int) ≤ b.last.label.stop.row

namespace Tree

variable {g : Grammar} {language : Language} {source : String}

/-- **The findings in a block** come from it, and their lines rise. -/
theorem comesFrom_of_trivia? (hg : g.classify = Comment.classify language) (t : Tree)
    (accepts : Matcher) {b : Within Block} {w : Within Trivia} (hb : b.it.Placed source)
    (h : Within.trivia? g source.toUTF8 b = .ok w) :
    (∀ f ∈ t.findingsIn accepts w, f.ComesFrom source b.it) ∧
      (t.findingsIn accepts w).Pairwise fun f f' ↦ f.line ≤ f'.line := by
  obtain ⟨r, hr, rfl⟩ := map_eq_ok_iff.1 h
  obtain ⟨hitems, hrise⟩ := hb.standsOn hg hr
  refine ⟨fun f hf ↦ ?_, List.pairwise_map.2 (hrise.filter _)⟩
  obtain ⟨item, hitem, rfl⟩ := List.mem_map.1 hf
  obtain ⟨hstands, hfrom, hto⟩ := hitems item (List.mem_of_mem_filter hitem)
  exact ⟨hstands, hfrom, hto⟩

/-- **The findings in blocks** that follow each other come from these blocks, and their lines rise:
what comes from a block lies before what comes from a block behind it. -/
theorem comesFrom_of_notes (hg : g.classify = Comment.classify language) (t : Tree)
    (accepts : Matcher) {blocks : List (Within Block)} {notes : List (Within Trivia)}
    (hplaced : ∀ b ∈ blocks, b.it.Placed source)
    (hpair : blocks.Pairwise fun a b ↦ a.it.last.label.stop.row ≤ b.it.first.label.start.row)
    (h : blocks.mapM (Within.trivia? g source.toUTF8) = .ok notes) :
    (∀ f ∈ notes.flatMap (t.findingsIn accepts), ∃ b ∈ blocks, f.ComesFrom source b.it) ∧
      (notes.flatMap (t.findingsIn accepts)).Pairwise fun f f' ↦ f.line ≤ f'.line := by
  induction blocks generalizing notes with
  | nil =>
    cases h
    exact ⟨fun f hf ↦ absurd hf List.not_mem_nil, .nil⟩
  | cons b blocks ih =>
    obtain ⟨w, rest, hw, hrest, rfl⟩ := mapM_cons_eq_ok_iff.1 h
    obtain ⟨hb, hblocks⟩ := List.forall_mem_cons.1 hplaced
    obtain ⟨hbefore, hpair⟩ := List.pairwise_cons.1 hpair
    obtain ⟨hown, hownRise⟩ := comesFrom_of_trivia? hg t accepts hb hw
    obtain ⟨hothers, hothersRise⟩ := ih hblocks hpair hrest
    rw [List.flatMap_cons]
    refine ⟨fun f hf ↦ ?_, List.pairwise_append.2 ⟨hownRise, hothersRise, fun f hf f' hf' ↦ ?_⟩⟩
    · rcases List.mem_append.1 hf with hf | hf
      · exact ⟨b, List.mem_cons_self, hown f hf⟩
      · obtain ⟨b', hb', hfrom⟩ := hothers f hf
        exact ⟨b', List.mem_cons_of_mem _ hb', hfrom⟩
    · obtain ⟨b', hb', hfrom⟩ := hothers f' hf'
      have hle : (f.line : Int) ≤ f'.line :=
        calc (f.line : Int) ≤ b.it.last.label.stop.row := (hown f hf).to_last
          _ ≤ b'.it.first.label.start.row := hbefore b' hb'
          _ ≤ f'.line := hfrom.from_first
      exact Int.ofNat_le.1 hle

end Tree

namespace Grammar

/-- **The lines of findings are right and do not fall.** A tree of a C#, Java or Python source can
be searched with any matcher, and the lines of what is found do not fall. The text of each finding,
be it a comment, a run of documentation lines or a delimiter, is part of the source and starts on
the line that the finding says. -/
theorem finding_lines (language : Language) {source : String} {c : Concrete}
    (hc : c.Placed source) (accepts : Matcher) :
    ∃ t found, (ofLanguage language).tree? source.toUTF8 c = .ok t ∧
      t.findings? accepts = .ok found ∧ found.Pairwise (fun f f' ↦ f.line ≤ f'.line) ∧
      ∀ f ∈ found, Text.StandsOn source.toList f.line f.content.toList := by
  have hclassify := classify_ofLanguage language
  obtain ⟨t, ht⟩ := exists_tree?_of_placed hclassify hc
  obtain ⟨notes, passed, hnotes, hfound, -, hsame⟩ := exists_findings? ht accepts
  rw [hsame hc.rowsInOrder] at hfound
  have hplaced : ∀ b ∈ c.blocks (ofLanguage language) source.toUTF8, b.it.Placed source :=
    fun b hb ↦ Block.placed_of_mem_landmarks hc (Concrete.comment_mem_landmarks hb)
  have hpair := (Concrete.pairwise_blocks (ofLanguage language) source.toUTF8 hc.rowsInOrder).imp
    fun {a b} hab ↦ hab a.it.last (List.getLast_mem _) b.it.first List.mem_cons_self
  obtain ⟨hfrom, hrise⟩ := Tree.comesFrom_of_notes hclassify t accepts hplaced hpair hnotes
  refine ⟨t, _, ht, hfound, hrise, fun f hf ↦ ?_⟩
  obtain ⟨b, -, hb⟩ := hfrom f hf
  exact hb.standsOn

/-- The comments and delimiters of the small file are found on their lines. -/
theorem finding_lines_sample : Concrete.sample.Placed Concrete.sampleText ∧
    ∃ t found, csharp.tree? Concrete.sampleText.toUTF8 Concrete.sample = .ok t ∧
      t.findings? (fun _ ↦ true) = .ok found ∧ found.Pairwise (fun f f' ↦ f.line ≤ f'.line) ∧
      ∀ f ∈ found, Text.StandsOn Concrete.sampleText.toList f.line f.content.toList :=
  ⟨Concrete.sample_placed, finding_lines .csharp Concrete.sample_placed fun _ ↦ true⟩

/-- The two lines of documentation are found together on line one, and so is the first of their
delimiters. -/
example : ((csharp.tree? Concrete.sampleText.toUTF8 Concrete.sample).toOption.bind fun t ↦
    (t.findings? fun _ ↦ true).toOption).map (·.map fun f ↦ (f.line, f.content)) =
      some [(1, "/// TODO\n/// a"), (1, "///"), (2, "///"), (3, "// b")] := by
  decide +kernel

end Grammar

end CommentScope
