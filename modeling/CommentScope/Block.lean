import CommentScope.Grammar

/-!
# Comment blocks

Among siblings, documentation lines on consecutive rows form one comment; every other comment stands
alone. `Block.leading` splits a list of siblings into the blocks before its first node that is not a
comment, and the rest. It loses no node (`nodes_leading`).
-/

namespace CommentScope

/-- A comment as it is reported: one comment node, and the lines of documentation behind it that are
joined to it. -/
structure Block where
  first : Concrete
  more : List Concrete

/-- A comment that is ready to be attached: where it stands, and its trivia. -/
structure Remark where
  span : Span
  trivia : Trivia

namespace Block

/-- The comment nodes of a block. -/
def nodes (b : Block) : List Concrete := b.first :: b.more

/-- The last comment node of a block. -/
def last (b : Block) : Concrete := b.nodes.getLast (List.cons_ne_nil _ _)

variable (g : Grammar) (source : ByteArray)

/-- The text of a block: all the source between its ends. -/
def text (b : Block) : String :=
  Utf8.slice source b.first.label.startByte b.last.label.endByte

/-- The span of a block, from the start of its first node to the end of its last one. -/
def span? (b : Block) : Except Span.Fault Span :=
  Span.between? b.first.label.start b.last.label.stop

/-- The span and the trivia of a block. -/
def remark? (b : Block) : Except Span.Fault Remark := do
  let span ← b.span?
  let trivia ← g.classify (b.text source) span
  pure ⟨span, trivia⟩

/-- Whether a comment goes on a run of documentation lines that ends with `last`. -/
def continues (last c : Concrete) : Bool :=
  g.isComment c && c.label.start.row == last.label.stop.row + 1 && g.isDocLine source c

/-- The siblings that go on the run of documentation lines that `last` is part of, and the siblings
behind them. -/
def run (last : Concrete) : List Concrete → List Concrete × List Concrete
  | [] => ([], [])
  | c :: rest =>
    if continues g source last c then
      let r := run c rest
      (c :: r.1, r.2)
    else ([], c :: rest)

theorem run_append (last : Concrete) (siblings : List Concrete) :
    (run g source last siblings).1 ++ (run g source last siblings).2 = siblings := by
  induction siblings generalizing last with
  | nil => rfl
  | cons c rest ih =>
    simp only [run]
    split
    · rw [List.cons_append, ih c]
    · rfl

/-- The block that starts with a comment, and the siblings behind it. -/
def take (c : Concrete) (rest : List Concrete) : Block × List Concrete :=
  if g.isDocLine source c then
    let r := run g source c rest
    (⟨c, r.1⟩, r.2)
  else (⟨c, []⟩, rest)

theorem nodes_take (c : Concrete) (rest : List Concrete) :
    (take g source c rest).1.nodes ++ (take g source c rest).2 = c :: rest := by
  unfold take
  split
  · rw [nodes, List.cons_append, run_append]
  · rfl

theorem length_take_le (c : Concrete) (rest : List Concrete) :
    (take g source c rest).2.length ≤ rest.length := by
  have h := congrArg List.length (nodes_take g source c rest)
  rw [List.length_append, nodes, List.length_cons, List.length_cons] at h
  omega

/-- The blocks before the first sibling that is not a comment, and the siblings from it on. -/
def leading : List Concrete → List Block × List Concrete
  | [] => ([], [])
  | c :: rest =>
    if g.isComment c then
      let t := take g source c rest
      let l := leading t.2
      (t.1 :: l.1, l.2)
    else ([], c :: rest)
termination_by siblings => siblings.length
decreasing_by exact Nat.lt_succ_of_le (length_take_le g source c rest)

/-- **Grouping comments loses no node** and keeps the order of the nodes. -/
theorem nodes_leading (siblings : List Concrete) :
    (leading g source siblings).1.flatMap nodes ++ (leading g source siblings).2 = siblings := by
  fun_induction leading g source siblings with
  | case1 => rfl
  | case2 c rest h t l ih =>
    rw [List.flatMap_cons, List.append_assoc, ih, nodes_take]
  | case3 => rfl

theorem weight_leading_le (siblings : List Concrete) :
    Concrete.weightOfAll (leading g source siblings).2 ≤ Concrete.weightOfAll siblings := by
  have h := congrArg Concrete.weightOfAll (nodes_leading g source siblings)
  rw [Concrete.weightOfAll_append] at h
  omega

/-- What stands behind the leading blocks is not a comment. -/
theorem isComment_leading_head {siblings : List Concrete} {c : Concrete} {rest : List Concrete}
    (h : (leading g source siblings).2 = c :: rest) : g.isComment c = false := by
  fun_induction leading g source siblings with
  | case1 => simp at h
  | case2 _ _ _ _ _ ih => exact ih h
  | case3 d rest hd =>
    cases h
    simpa using hd

end Block

end CommentScope
