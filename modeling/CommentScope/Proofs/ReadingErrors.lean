import CommentScope.Proofs.CodeTree
import CommentScope.Proofs.Malformed
import CommentScope.Proofs.Reports
import CommentScope.Proofs.SiblingRuns

/-!
# What could not be read

A parser says of its errors where they are in the concrete tree: they are nodes of a type of their own,
and leaves that are missing. A report counts them in the tree that was made of it, where missing leaves
have another type, comments are gone, tokens are inserted and siblings are adopted. The number is the
same (`Scanner.scanSource_errors`).
-/

namespace CommentScope

/-- Whether a node is an error or stands for a missing leaf. -/
def Node.isMisread (n : Node) : Bool :=
  n.type == Annotated.errorType || n.type == Annotated.missingType

/-- Only the type of a node says whether it is misread. -/
theorem Node.isMisread_of_type {n : Node} {type : String} (h : n.type = type) :
    n.isMisread = (type == Annotated.errorType || type == Annotated.missingType) := by
  rw [isMisread, h]

/-! ### Misread nodes of a concrete tree -/

namespace Concrete

/-- Whether a node is an error or a missing leaf. -/
def isMisread (c : Concrete) : Bool :=
  c.label.type == Annotated.errorType || (c.isLeaf && c.label.missing)

variable (isComment : Concrete → Bool)

mutual

/-- The root of a tree, and the nodes below it that are neither comments nor in comments. -/
def codeNodes : Concrete → List Concrete
  | ⟨l, cs⟩ => ⟨l, cs⟩ :: codeNodesOf cs

/-- The nodes of trees that are neither comments nor in comments. -/
def codeNodesOf : List Concrete → List Concrete
  | [] => []
  | c :: cs => (if isComment c then [] else codeNodes c) ++ codeNodesOf cs

end

/-- The number of nodes outside comments that are errors or missing leaves. The root counts if it is
an error. -/
def misreadCount (c : Concrete) : Nat :=
  (if c.label.type = Annotated.errorType then 1 else 0) +
    (codeNodesOf isComment c.children).countP isMisread

variable {isComment} {c : Concrete} {cs rest : List Concrete}

theorem codeNodes_eq_cons (c : Concrete) :
    c.codeNodes isComment = c :: codeNodesOf isComment c.children := by
  cases c
  rw [codeNodes, children]

theorem codeNodesOf_cons (hc : isComment c = false) :
    codeNodesOf isComment (c :: cs) =
      c :: (codeNodesOf isComment c.children ++ codeNodesOf isComment cs) := by
  rw [codeNodesOf, hc, if_neg Bool.false_ne_true, codeNodes_eq_cons, List.cons_append]

theorem codeNodesOf_append (cs rest : List Concrete) :
    codeNodesOf isComment (cs ++ rest) =
      codeNodesOf isComment cs ++ codeNodesOf isComment rest := by
  induction cs with
  | nil => rfl
  | cons c cs ih => rw [List.cons_append, codeNodesOf, codeNodesOf, ih, List.append_assoc]

theorem codeNodesOf_comments (h : ∀ c ∈ cs, isComment c = true) : codeNodesOf isComment cs = [] := by
  induction cs with
  | nil => rfl
  | cons c cs ih =>
    obtain ⟨hc, hcs⟩ := List.forall_mem_cons.1 h
    rw [codeNodesOf, hc, if_pos rfl, ih hcs, List.append_nil]

theorem misreadCount_eq_zero_iff : c.misreadCount isComment = 0 ↔
    c.label.type ≠ Annotated.errorType ∧
      ∀ n ∈ codeNodesOf isComment c.children, n.isMisread = false := by
  rw [misreadCount, Nat.add_eq_zero_iff, List.countP_eq_zero]
  simp

end Concrete

/-! ### Misread nodes of laid out syntax -/

namespace Annotated

open Concrete

variable {g : Grammar} {source : ByteArray} {c : Concrete} {cs rest : List Concrete}
  {blocks : List Block}

/-- Whether no node is without a type, or of the type that missing leaves are given. -/
def HasTypes (cs : List Concrete) : Prop :=
  ∀ n ∈ cs, n.label.type ≠ "" ∧ n.label.type ≠ missingType

/-- The nodes behind a gap are all there are outside comments. -/
theorem codeNodesOf_of_leading (gap : Block.leading g source cs = (blocks, rest)) :
    codeNodesOf g.isComment cs = codeNodesOf g.isComment rest := by
  obtain ⟨rfl, hcomments⟩ := Block.of_leading gap
  rw [codeNodesOf_append, codeNodesOf_comments hcomments, List.nil_append]

/-- Adopted siblings stand inside a node instead of behind it. -/
theorem codeNodesOf_inside_append_behind (c : Concrete) (rest : List Concrete) :
    codeNodesOf g.isComment (inside g c rest) ++ codeNodesOf g.isComment (behind g c rest) =
      codeNodesOf g.isComment c.children ++ codeNodesOf g.isComment rest := by
  rw [inside, behind]
  split
  · rw [codeNodesOf_append]
    exact List.append_nil _
  · rfl

theorem countP_layoutAll_cons (p : Node → Bool) (parent : Option Nat) (i : Nat) (a : Annotated)
    (as : List Annotated) : (layoutAll parent i (a :: as)).countP p =
      (layoutAll (some i) (i + 1) a.children).countP p +
        (if p (a.head parent i) then 1 else 0) + (layoutAll parent (i + a.size) as).countP p := by
  rw [layoutAll, layout_eq_cons, List.countP_append, List.countP_cons]

/-- Inserted tokens are not misread. -/
theorem countP_layoutAll_anchors (parent : Option Nat) (i : Nat) (rs : List Remark) :
    (layoutAll parent i (rs.map anchor)).countP Node.isMisread = 0 := by
  induction rs generalizing i with
  | nil => rfl
  | cons r rs ih =>
    have htype : ((anchor r).head parent i).isMisread = false := by
      rw [Node.isMisread_of_type (type_inserted .anchor)]
      decide
    rw [List.map_cons, countP_layoutAll_cons, ih, htype]
    rfl

theorem countP_layoutAll_closing (parent : Option Nat) (i : Nat) (root : Option Span)
    (free : List Remark) : (layoutAll parent i (closing root free)).countP Node.isMisread = 0 := by
  cases root with
  | none => exact countP_layoutAll_anchors parent i free
  | some s =>
    have htype : ((endOfFile s (free.map Remark.trivia)).head parent i).isMisread = false := by
      rw [Node.isMisread_of_type (type_inserted .endOfFile)]
      decide
    rw [closing, countP_layoutAll_cons, htype]
    rfl

/-- The token of a leaf is misread if the leaf is. -/
theorem isMisread_token (hleaf : c.isLeaf = true) (hempty : c.label.type ≠ "")
    (hmissing : c.label.type ≠ missingType) {text : String} {span : Span}
    {leading trailing : List Trivia} {parent : Option Nat} {i : Nat} :
    ((token (leafType c) text span leading trailing).head parent i).isMisread = c.isMisread := by
  have hne : leafType c ≠ "" := by
    rw [leafType]
    split
    · decide
    · exact hempty
  rw [Node.isMisread_of_type (Draft.tokenType_of_ne_empty hne text), Concrete.isMisread, hleaf,
    leafType]
  cases c.label.missing with
  | true =>
    rw [if_pos rfl]
    simp
  | false =>
    rw [if_neg Bool.false_ne_true]
    simp [hmissing]

/-- The node of an interior node is misread if this one is. -/
theorem isMisread_branch (hleaf : c.isLeaf = false) (hmissing : c.label.type ≠ missingType)
    {role : Role} {name : Option String} {span : Span} {below : List Annotated}
    {parent : Option Nat} {i : Nat} :
    ((branch c.label.type role name span below).head parent i).isMisread = c.isMisread := by
  have htype : ((branch c.label.type role name span below).head parent i).type = c.label.type := rfl
  rw [Node.isMisread_of_type htype, Concrete.isMisread, hleaf]
  simp [hmissing]

/-- **Reading siblings keeps the number of nodes that are misread.** -/
theorem Reads.countP_misread {root : Option Span} {after : Option Int} {lead : List Trivia}
    {as : List Annotated} (h : Reads g source root after cs lead as)
    (htypes : HasTypes (codeNodesOf g.isComment cs)) (parent : Option Nat) (i : Nat) :
    (layoutAll parent i as).countP Node.isMisread =
      (codeNodesOf g.isComment cs).countP Concrete.isMisread := by
  induction h generalizing parent i with
  | @last root after cs blocks trailing free gap shares =>
    rw [countP_layoutAll_closing, codeNodesOf_of_leading gap]
    rfl
  | @leaf root after cs rest c blocks trailing free span lead as gap shares place isLeaf more ih =>
    have hc : g.isComment c = false := Block.isComment_leading_head g source (congrArg Prod.snd gap)
    have hchildren : c.children = [] := List.isEmpty_iff.1 isLeaf
    rw [codeNodesOf_of_leading gap, codeNodesOf_cons hc, hchildren] at htypes ⊢
    obtain ⟨⟨hempty, hmissing⟩, hrest⟩ := List.forall_mem_cons.1 htypes
    rw [countP_layoutAll_cons, isMisread_token isLeaf hempty hmissing, ih hrest, List.countP_cons]
    show 0 + _ + _ = _
    rw [Nat.zero_add, Nat.add_comm]
    rfl
  | @inner root after cs rest c blocks trailing free span leadBelow lead below as gap shares place
      isInner _ _ ihb ihm =>
    have hc : g.isComment c = false := Block.isComment_leading_head g source (congrArg Prod.snd gap)
    rw [codeNodesOf_of_leading gap, codeNodesOf_cons hc, ← codeNodesOf_inside_append_behind]
      at htypes ⊢
    obtain ⟨⟨-, hmissing⟩, hrest⟩ := List.forall_mem_cons.1 htypes
    obtain ⟨hinside, hbehind⟩ := List.forall_mem_append.1 hrest
    rw [layoutAll_append, List.countP_append, countP_layoutAll_anchors, countP_layoutAll_cons,
      isMisread_branch isInner hmissing, ihm hbehind, List.countP_cons, List.countP_append]
    show 0 + ((layoutAll _ _ below).countP Node.isMisread + _ + _) = _
    rw [ihb hinside]
    omega

end Annotated

/-! ### Reports -/

/-- How a report says that nodes were misread. -/
def misreadWords (count : Nat) : String :=
  s!"source has {count} syntax error(s); scopes are best-effort"

namespace Grammar

open Concrete Annotated

variable {g : Grammar} {source : ByteArray} {c : Concrete} {t : Tree}

/-- The number of misread nodes in a tree is that in the concrete tree which it was read from. -/
theorem countP_misread (h : g.tree? source c = .ok t)
    (htypes : HasTypes (c.codeNodes g.isComment)) :
    t.nodes.toList.countP Node.isMisread = c.misreadCount g.isComment := by
  obtain ⟨span, below, -, hbelow, rfl⟩ := (tree?_eq_ok_iff g source).1 h
  obtain ⟨⟨lead, as⟩, hsiblings, rfl⟩ := Outcome.map_eq_ok_iff.1 hbelow
  rw [codeNodes_eq_cons] at htypes
  obtain ⟨⟨-, hmissing⟩, hchildren⟩ := List.forall_mem_cons.1 htypes
  have hcount := (reads_of_siblings hsiblings).countP_misread hchildren (some 0) 1
  show (layout none 0 (branch c.label.type _ _ _ as)).countP Node.isMisread = _
  rw [layout_eq_cons, List.countP_cons]
  show (layoutAll (some 0) 1 as).countP Node.isMisread + _ = _
  rw [hcount, misreadCount, Nat.add_comm]
  congr 1
  have htype : ((branch c.label.type (g.role c.label.type) none span as).head none 0).type =
      c.label.type := rfl
  rw [Node.isMisread_of_type htype]
  simp [hmissing]

end Grammar

namespace Scanner

open Concrete Outcome

variable {s : Scanner} {source path : String} {language : Option Language} {hash : Option String}
  {l : Language} {frontEnd : FrontEnd} {t : Tree}

/-- A source whose tree can be read has a report, with this tree. -/
theorem exists_report (hlanguage : (language <|> s.registry.languageFor? path) = some l)
    (hfrontEnd : s.registry.frontEnd? l = some frontEnd)
    (ht : frontEnd.grammar.tree? source.toUTF8 (frontEnd.parse source) = .ok t) :
    ∃ report, s.scanSource (some source) path language hash = .ok report ∧
      report.errors = t.readingErrors := by
  obtain ⟨notes, passed, -, hfound, -⟩ := Grammar.exists_findings? ht s.accepts
  have hl : s.languageOf path language = .ok l := by rw [languageOf, hlanguage]
  have hf : s.frontEndOf l = .ok frontEnd := by rw [frontEndOf, hfrontEnd]
  exact ⟨_, bind_eq_ok_iff.2 ⟨l, hl, bind_eq_ok_iff.2 ⟨frontEnd, hf, bind_eq_ok_iff.2
    ⟨t, mapError_eq_ok_iff.2 ht, bind_eq_ok_iff.2 ⟨_, mapError_eq_ok_iff.2 hfound, rfl⟩⟩⟩⟩, rfl⟩

/-- **The errors of a report are those of the concrete tree.** Let the concrete tree of a source be
read, and let no node of it outside comments be without a type or of the type that missing leaves are
given. Then the source has a report. There is no error in it if, outside comments, no node of the
concrete tree is an error and no leaf below the root is missing. Otherwise there is one error, with the
number of these nodes. The number does not depend on how comments are joined, which tokens are inserted
and which siblings are adopted, nor on whether anything is below an error. -/
theorem scanSource_errors (hlanguage : (language <|> s.registry.languageFor? path) = some l)
    (hfrontEnd : s.registry.frontEnd? l = some frontEnd)
    (ht : frontEnd.grammar.tree? source.toUTF8 (frontEnd.parse source) = .ok t)
    (htypes : Annotated.HasTypes ((frontEnd.parse source).codeNodes frontEnd.grammar.isComment)) :
    ∃ report, s.scanSource (some source) path language hash = .ok report ∧
      (report.errors = [] ↔ (frontEnd.parse source).label.type ≠ Annotated.errorType ∧
        ∀ n ∈ codeNodesOf frontEnd.grammar.isComment (frontEnd.parse source).children,
          n.label.type ≠ Annotated.errorType ∧ ¬ (n.isLeaf = true ∧ n.label.missing = true)) ∧
      (report.errors ≠ [] → report.errors =
        [misreadWords ((frontEnd.parse source).misreadCount frontEnd.grammar.isComment)]) := by
  obtain ⟨report, hreport, herrors⟩ := exists_report hlanguage hfrontEnd ht
  have hcount := Grammar.countP_misread ht htypes
  have hwords : report.errors =
      if (frontEnd.parse source).misreadCount frontEnd.grammar.isComment = 0 then []
      else [misreadWords ((frontEnd.parse source).misreadCount frontEnd.grammar.isComment)] := by
    rw [herrors, ← hcount]
    rfl
  refine ⟨report, hreport, ?_, fun hne ↦ ?_⟩
  · have hzero : report.errors = [] ↔
        (frontEnd.parse source).misreadCount frontEnd.grammar.isComment = 0 := by
      rw [hwords]
      split
      · rename_i hcount
        exact iff_of_true rfl hcount
      · rename_i hcount
        exact iff_of_false (List.cons_ne_nil _ _) hcount
    rw [hzero, misreadCount_eq_zero_iff]
    simp [Concrete.isMisread]
  · rw [hwords] at hne ⊢
    split at hne
    · exact absurd rfl hne
    · rename_i hcount
      exact if_neg hcount

/-- A scanner whose parsers give the tree of the garbled file. -/
def garbled : Scanner :=
  ⟨.ofAll fun l ↦ ⟨.ofLanguage l, fun _ ↦ Grammar.garbled⟩, Markers.standard.accepts⟩

/-- In the garbled file there are an error and a missing leaf. -/
theorem scanSource_errors_garbled : ∃ report,
    garbled.scanSource (some Grammar.garbledText) "a.cs" none none = .ok report ∧
      report.errors = ["source has 2 syntax error(s); scopes are best-effort"] := by
  have hlanguage : (none <|> garbled.registry.languageFor? "a.cs") = some .csharp := by
    decide +kernel
  have hfrontEnd : garbled.registry.frontEnd? .csharp =
      some ⟨.ofLanguage .csharp, fun _ ↦ Grammar.garbled⟩ := Registry.frontEnd?_ofAll _ _
  obtain ⟨t, ht⟩ : ∃ t, (Grammar.ofLanguage .csharp).tree? Grammar.garbledText.toUTF8
      Grammar.garbled = .ok t :=
    Grammar.exists_tree?_of_agrees (Grammar.classify_ofLanguage .csharp) (by decide)
      (by decide +kernel)
  have hcount : Grammar.garbled.misreadCount (Grammar.ofLanguage .csharp).isComment = 2 := by
    decide +kernel
  obtain ⟨report, hreport, hnone, hone⟩ :=
    @scanSource_errors garbled Grammar.garbledText "a.cs" none none _ _ t hlanguage hfrontEnd ht
      (by unfold Annotated.HasTypes; decide +kernel)
  refine ⟨report, hreport, ?_⟩
  have hne : report.errors ≠ [] := fun h ↦ absurd (hnone.1 h).2 (by decide +kernel)
  rw [hone hne, hcount]
  decide +kernel

end Scanner

end CommentScope
