import CommentScope.Proofs.Malformed
import CommentScope.Proofs.Scopes

/-!
# Notes to do something are found once each

With the standard markers, searching a tree of a C# or Java source finds each comment block that
holds a wanted comment once, with the whole text of the block, in the order of the source
(`Grammar.todo_findings`). The parts of documentation comments give rise to no finding, and joining
lines of documentation to a block neither hides a wanted line nor makes one.
-/

namespace CommentScope

open Outcome

/-- What is reported of a wanted block: all of its text, the line on which it starts, and the nodes
around it. -/
def Tree.reportOf (t : Tree) (source : ByteArray) (b : Within Block) : Finding where
  content := b.it.text source
  line := b.it.first.label.start.row.toNat
  scopes := t.scopesOf b.around

namespace Grammar

variable {g : Grammar} {language : Language} {source : String} {c : Concrete}

/-- **A tree of a source can be read** if comments are classified as in one of the languages. -/
theorem exists_tree?_of_placed (hg : g.classify = Comment.classify language)
    (hc : c.Placed source) : ∃ t, g.tree? source.toUTF8 c = .ok t := by
  refine exists_tree?_of_agrees hg (fun n hn ↦ hc.delimits hn) fun n hn _ ↦ ?_
  exact ⟨(hc.start n hn).eq_pointAt, (hc.stop n hn).eq_pointAt⟩

/-- The findings in the trivia of a block: the report of the block, if its text is wanted. -/
theorem findingsIn_of_trivia? (hg : g.classify = Comment.classify language) (t : Tree)
    {b : Within Block} {w : Within Trivia} {bytes : ByteArray}
    (h : Within.trivia? g bytes b = .ok w) :
    t.findingsIn Markers.standard.accepts w =
      if Markers.standard.accepts (b.it.text bytes) then [t.reportOf bytes b] else [] := by
  obtain ⟨r, hr, rfl⟩ := map_eq_ok_iff.1 h
  obtain ⟨span, hspan, hr⟩ := bind_eq_ok_iff.1 hr
  obtain ⟨trivia, htrivia, hr⟩ := bind_eq_ok_iff.1 hr
  cases hr
  rw [hg] at htrivia
  obtain ⟨htext, hat⟩ := Comment.classify_eq_ok htrivia
  have hline : trivia.span.startLine = b.it.first.label.start.row.toNat := by
    rw [hat, ← (Span.between?_eq_ok hspan).1]
    rfl
  rw [Tree.findingsIn, Comment.wanted_items htrivia]
  split
  · show [Finding.mk trivia.text trivia.span.startLine (t.scopesOf b.around)] = _
    rw [htext, hline]
    rfl
  · rfl

/-- The findings in the trivia of blocks: the reports of the wanted blocks, in order. -/
theorem findingsIn_of_notes (hg : g.classify = Comment.classify language) (t : Tree)
    {blocks : List (Within Block)} {notes : List (Within Trivia)} {bytes : ByteArray}
    (h : blocks.mapM (Within.trivia? g bytes) = .ok notes) :
    notes.flatMap (t.findingsIn Markers.standard.accepts) =
      (blocks.filter fun b ↦ Markers.standard.accepts (b.it.text bytes)).map
        (t.reportOf bytes) := by
  induction blocks generalizing notes with
  | nil =>
    cases h
    rfl
  | cons b blocks ih =>
    obtain ⟨w, rest, hw, hrest, rfl⟩ := mapM_cons_eq_ok_iff.1 h
    rw [List.flatMap_cons, findingsIn_of_trivia? hg t hw, ih hrest, List.filter_cons]
    split <;> rfl

/-- **Each wanted comment block is found once.** In a tree of a C# or Java source in which there is
only a line end and blanks between lines of documentation that are joined, searching with the
standard markers succeeds. What it finds are the blocks that hold a wanted comment, one by one and
in order. -/
theorem todo_findings (hg : g = csharp ∨ g = java) (hc : c.Placed source)
    (hgaps : ∀ b ∈ c.blocks g source.toUTF8, b.it.HasLineGaps source.toUTF8) :
    ∃ t, g.tree? source.toUTF8 c = .ok t ∧
      t.findings? Markers.standard.accepts =
        .ok (((c.blocks g source.toUTF8).filter fun b ↦ b.it.nodes.any fun n ↦
          Markers.standard.accepts (n.text source.toUTF8)).map (t.reportOf source.toUTF8)) := by
  obtain ⟨language, hclassify⟩ : ∃ language, g.classify = Comment.classify language := by
    rcases hg with rfl | rfl
    · exact ⟨.csharp, rfl⟩
    · exact ⟨.java, rfl⟩
  obtain ⟨t, ht⟩ := exists_tree?_of_placed hclassify hc
  obtain ⟨notes, passed, hnotes, hfound, -, hsame⟩ := exists_findings? ht Markers.standard.accepts
  rw [hsame hc.rowsInOrder, findingsIn_of_notes hclassify t hnotes] at hfound
  refine ⟨t, ht, hfound.trans ?_⟩
  congr 2
  refine List.filter_congr fun b hb ↦ ?_
  exact Block.accepts_text
    (Block.placed_of_mem_landmarks hc (Concrete.comment_mem_landmarks hb)) (hgaps b hb)

/-- The note in the small file is found once. -/
theorem todo_findings_sample : Concrete.sample.Placed Concrete.sampleText ∧
    ∃ t found, csharp.tree? Concrete.sampleText.toUTF8 Concrete.sample = .ok t ∧
      t.findings? Markers.standard.accepts = .ok found ∧
      found.map Finding.content = ["/// TODO\n/// a"] := by
  have hgaps : ∀ b ∈ Concrete.sample.blocks csharp Concrete.sampleText.toUTF8,
      b.it.HasLineGaps Concrete.sampleText.toUTF8 := by
    decide +kernel
  obtain ⟨t, ht, hfound⟩ := todo_findings (.inl rfl) Concrete.sample_placed hgaps
  refine ⟨Concrete.sample_placed, t, _, ht, hfound, ?_⟩
  rw [List.map_map]
  show List.map (fun b : Within Block ↦ b.it.text Concrete.sampleText.toUTF8) _ = _
  decide +kernel

end Grammar

end CommentScope
