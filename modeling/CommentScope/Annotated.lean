import CommentScope.Block
import CommentScope.Tree.Draft

/-!
# Syntax with comments attached to tokens

The concrete tree holds comments among the other children. Here they become trivia of tokens, such
that the parent of the token that carries a comment is the node the comment stood in:

- a comment that starts on the row on which the leaf before it ends is trailing trivia of that leaf;
- otherwise, if the next sibling is a leaf, the comment is leading trivia of it;
- otherwise, at the end of the root, it is leading trivia of the end-of-file token;
- otherwise it gets an empty token of its own, an anchor.

Siblings are read gap by gap: `Annotated.siblings` takes the comment blocks up to the next node that
is not a comment, shares them out between the leaf before and what follows, and goes on behind that
node. An interior node of an adopting type takes the siblings behind it as its last children.
-/

namespace CommentScope

/-- What an inserted token is there for: a comment between interior nodes, or the end of the tree. -/
inductive Filler where
  | anchor
  | endOfFile
  deriving DecidableEq

/-- The type of the token that is inserted. -/
def Filler.type : Filler → String
  | .anchor => "trivia_anchor"
  | .endOfFile => "end_of_file"

/-- A syntax tree whose comments are attached to tokens. Inserted tokens have a position but no text
and no width; they are there for the comments they carry. -/
inductive Annotated where
  | token (type text : String) (span : Span) (leading trailing : List Trivia)
  | inserted (filler : Filler) (line : Nat) (column : Int) (leading : List Trivia)
  | branch (type : String) (role : Role) (name : Option String) (span : Span)
    (children : List Annotated)

namespace Annotated

/-- The type under which missing tokens are reported. -/
def missingType : String := "MISSING"

/-- The type under which parsers report what they could not read. -/
def errorType : String := "ERROR"

/-- The empty token that carries one comment. -/
def anchor (r : Remark) : Annotated :=
  .inserted .anchor r.span.startLine r.span.startColumn [r.trivia]

/-- The empty token at the end of a tree. -/
def endOfFile (stop : Span) (leading : List Trivia) : Annotated :=
  .inserted .endOfFile stop.endLine stop.endColumn leading

/-- Whether a comment starts on a given row, if one is given. -/
def startsOn (row : Option Int) (r : Remark) : Bool := row == some (r.span.startLine : Int)

variable (g : Grammar) (source : ByteArray)

/-- The comments of a gap, parted into those that trail the leaf before it and those that are
free. -/
def shareOut (after : Option Int) (blocks : List Block) :
    Except Span.Fault (List Remark × List Remark) :=
  (blocks.mapM (Block.remark? g source)).map fun rs ↦ rs.partition (startsOn after)

/-- The type of the token for a leaf. -/
def leafType (c : Concrete) : String :=
  if c.label.missing then missingType else c.label.type

/-- The text of the token for a leaf. -/
def leafText (c : Concrete) : String :=
  Utf8.slice source c.label.startByte c.label.endByte

/-- What an interior node holds: its children, and the siblings behind it if it adopts them. -/
def inside (c : Concrete) (rest : List Concrete) : List Concrete :=
  if g.isAdopting c then c.children ++ rest else c.children

/-- The siblings behind an interior node that are left to its parent. -/
def behind (c : Concrete) (rest : List Concrete) : List Concrete :=
  if g.isAdopting c then [] else rest

/-- **No node is read twice:** what a node holds and what is left behind it are together what there
was. -/
theorem weight_inside_add_behind (c : Concrete) (rest : List Concrete) :
    Concrete.weightOfAll (inside g c rest) + Concrete.weightOfAll (behind g c rest) + 1 =
      c.weight + Concrete.weightOfAll rest := by
  rw [c.weight_eq]
  unfold inside behind
  split
  · rw [Concrete.weightOfAll_append, Concrete.weightOfAll_nil]; omega
  · omega

/-- Attaches the comments among siblings. `after` is the row on which the node before them ends, if
that node is a leaf; the trivia that trail it come first in the result. `root` is the span of the
root if the siblings are its children: they then end with the end-of-file token. -/
def siblings (root : Option Span) (after : Option Int) (cs : List Concrete) :
    Except Span.Fault (List Trivia × List Annotated) :=
  match h : Block.leading g source cs with
  | (blocks, []) => do
    -- No sibling is left to carry the free comments.
    let shares ← shareOut g source after blocks
    match root with
    | some s => pure (shares.1.map Remark.trivia, [endOfFile s (shares.2.map Remark.trivia)])
    | none => pure (shares.1.map Remark.trivia, shares.2.map anchor)
  | (blocks, c :: rest) => do
    have hw : c.weight + Concrete.weightOfAll rest ≤ Concrete.weightOfAll cs := by
      simpa [h] using Block.weight_leading_le g source cs
    have hc := c.weight_pos
    have hs := weight_inside_add_behind g c rest
    let shares ← shareOut g source after blocks
    let span ← Span.between? c.label.start c.label.stop
    if c.isLeaf then
      let more ← siblings root (some c.label.stop.row) rest
      pure (shares.1.map Remark.trivia,
        .token (leafType c) (leafText source c) span (shares.2.map Remark.trivia) more.1 :: more.2)
    else
      -- No comment trails an interior node: what stands before it is free, and so is what follows.
      let below ← siblings none none (inside g c rest)
      let more ← siblings root none (behind g c rest)
      pure (shares.1.map Remark.trivia, shares.2.map anchor ++
        .branch c.label.type (g.role c.label.type) (g.declaredName? source c) span below.2 ::
          more.2)
termination_by Concrete.weightOfAll cs
decreasing_by all_goals omega

/-- The syntax below the root of a concrete tree. -/
def ofRoot (span : Span) (c : Concrete) : Except Span.Fault (List Annotated) :=
  (siblings g source (some span) none c.children).map (·.2)

end Annotated

end CommentScope
