import CommentScope.Proofs.Arranged
import CommentScope.Proofs.Outcome

/-!
# What reading siblings does

`Annotated.Reads` says what the comments among siblings become, gap by gap, if reading them
succeeds: the comments of a gap are shared out, the node behind the gap becomes a token or a branch,
and what is behind it is read in turn. It is the induction principle of the reader, and
`reads_of_siblings` is the only place where the steps of the reader are looked at.
-/

namespace CommentScope.Annotated

open Outcome

/-- What stands at the end of siblings: the end-of-file token with all free comments below the root,
an anchor for each of them elsewhere. -/
def closing (root : Option Span) (free : List Remark) : List Annotated :=
  match root with
  | some s => [endOfFile s (free.map Remark.trivia)]
  | none => free.map anchor

/-- What siblings are read as: the trivia that trail the leaf before them, and pieces of syntax. -/
inductive Reads (g : Grammar) (source : ByteArray) :
    Option Span → Option Int → List Concrete → List Trivia → List Annotated → Prop
  | last {root : Option Span} {after : Option Int} {cs : List Concrete} {blocks : List Block}
      {trailing free : List Remark}
      (gap : Block.leading g source cs = (blocks, []))
      (shares : shareOut g source after blocks = .ok (trailing, free)) :
      Reads g source root after cs (trailing.map Remark.trivia) (closing root free)
  | leaf {root : Option Span} {after : Option Int} {cs rest : List Concrete} {c : Concrete}
      {blocks : List Block} {trailing free : List Remark} {span : Span} {lead : List Trivia}
      {as : List Annotated}
      (gap : Block.leading g source cs = (blocks, c :: rest))
      (shares : shareOut g source after blocks = .ok (trailing, free))
      (place : Span.between? c.label.start c.label.stop = .ok span)
      (isLeaf : c.isLeaf = true)
      (more : Reads g source root (some c.label.stop.row) rest lead as) :
      Reads g source root after cs (trailing.map Remark.trivia)
        (.token (leafType c) (leafText source c) span (free.map Remark.trivia) lead :: as)
  | inner {root : Option Span} {after : Option Int} {cs rest : List Concrete} {c : Concrete}
      {blocks : List Block} {trailing free : List Remark} {span : Span}
      {leadBelow lead : List Trivia} {below as : List Annotated}
      (gap : Block.leading g source cs = (blocks, c :: rest))
      (shares : shareOut g source after blocks = .ok (trailing, free))
      (place : Span.between? c.label.start c.label.stop = .ok span)
      (isInner : c.isLeaf = false)
      (inside : Reads g source none none (inside g c rest) leadBelow below)
      (more : Reads g source root none (behind g c rest) lead as) :
      Reads g source root after cs (trailing.map Remark.trivia)
        (free.map anchor ++
          .branch c.label.type (g.role c.label.type) (g.declaredName? source c) span below :: as)

variable {g : Grammar} {source : ByteArray}

/-- **What is read is read gap by gap.** -/
theorem reads_of_siblings {root : Option Span} {after : Option Int} {cs : List Concrete}
    {r : List Trivia × List Annotated} (h : siblings g source root after cs = .ok r) :
    Reads g source root after cs r.1 r.2 := by
  fun_induction siblings g source root after cs generalizing r with
  | case1 root after cs blocks gap =>
    obtain ⟨⟨trailing, free⟩, shares, h⟩ := bind_eq_ok_iff.1 h
    have last : Reads g source root after cs (trailing.map Remark.trivia) (closing root free) :=
      .last gap shares
    cases root with
    | none => cases h; exact last
    | some s => cases h; exact last
  | case2 root after cs blocks c rest gap _ _ _ ihl ihb ihm =>
    obtain ⟨⟨trailing, free⟩, shares, h⟩ := bind_eq_ok_iff.1 h
    obtain ⟨span, place, h⟩ := bind_eq_ok_iff.1 h
    split at h
    · rename_i hl
      obtain ⟨more, hmore, h⟩ := bind_eq_ok_iff.1 h
      cases h
      exact .leaf gap shares place hl (ihl hmore)
    · rename_i hl
      obtain ⟨below, hbelow, h⟩ := bind_eq_ok_iff.1 h
      obtain ⟨more, hmore, h⟩ := bind_eq_ok_iff.1 h
      cases h
      exact .inner gap shares place (by simpa using hl) (ihb hbelow) (ihm hmore)

/-- How the comments of a gap are shared out. -/
theorem shareOut_eq_ok_iff {after : Option Int} {blocks : List Block}
    {trailing free : List Remark} :
    shareOut g source after blocks = .ok (trailing, free) ↔
      ∃ rs, blocks.mapM (Block.remark? g source) = .ok rs ∧
        trailing = rs.filter (startsOn after) ∧ free = rs.filter fun r ↦ !startsOn after r := by
  rw [shareOut, map_eq_ok_iff]
  simp only [List.partition_eq_filter_filter, Prod.mk.injEq, Function.comp_def, eq_comm]

/-- Nothing trails the node before siblings unless it is a leaf. -/
theorem Reads.lead_eq_nil {root : Option Span} {cs : List Concrete} {lead : List Trivia}
    {as : List Annotated} (h : Reads g source root none cs lead as) : lead = [] := by
  have none_trails : ∀ {blocks : List Block} {trailing free : List Remark},
      shareOut g source none blocks = .ok (trailing, free) →
        trailing.map Remark.trivia = [] := by
    intro blocks trailing free hs
    obtain ⟨rs, -, rfl, -⟩ := shareOut_eq_ok_iff.1 hs
    simp [startsOn]
  cases h with
  | last gap shares => exact none_trails shares
  | leaf gap shares => exact none_trails shares
  | inner gap shares => exact none_trails shares

end CommentScope.Annotated
