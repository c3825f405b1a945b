import CommentScope.Annotated

/-!
# Trees from concrete syntax

`Grammar.tree?` reads a concrete tree: comments are attached to tokens (`Annotated`), and the result
is laid out in an arena, each node before what is below it.
-/

namespace CommentScope

/-- Why a concrete tree cannot be read. -/
inductive Grammar.Fault where
  | span (fault : Span.Fault)
  | draft (fault : Draft.Fault)
  deriving DecidableEq

/-- The wording of a fault. -/
def Grammar.Fault.message : Grammar.Fault → Option String
  | .span fault => some fault.message
  | .draft fault => fault.message

namespace Draft

mutual

/-- Lays out a piece of syntax under a parent. -/
def attach (d : Draft) (parent : Nat) : Annotated → Except Fault Draft
  | .token type text span leading trailing =>
    (d.addToken text (some parent) (some type) span leading trailing).map (·.2)
  | .inserted filler line column leading =>
    (d.addToken "" (some parent) (some filler.type) (.emptyAt line column) leading []).map (·.2)
  | .branch type role name span children => do
    let added ← d.addNode type (some parent) role name span
    attachAll added.2 added.1 children

/-- Lays out pieces of syntax under a parent, in order. -/
def attachAll (d : Draft) (parent : Nat) : List Annotated → Except Fault Draft
  | [] => .ok d
  | a :: as => do
    let d ← attach d parent a
    attachAll d parent as

end

end Draft

namespace Grammar

/-- The tree of a concrete tree. The root stays an interior node even if nothing is below it, and
has no name. -/
def tree? (g : Grammar) (source : ByteArray) (c : Concrete) : Except Fault Tree := do
  let span ← (Span.between? c.label.start c.label.stop).mapError .span
  let below ← (Annotated.ofRoot g source span c).mapError .span
  let d ← ((Draft.empty (some g.language)).addNode c.label.type none (g.role c.label.type) none
    span).mapError .draft
  let d ← (d.2.attachAll d.1 below).mapError .draft
  d.build.mapError .draft

end Grammar

end CommentScope
