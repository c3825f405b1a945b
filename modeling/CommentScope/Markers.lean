import CommentScope.Text.Search

/-!
# Which comments are wanted

A comment is wanted when its text, delimiters included, contains one of some markers or ends with
one of some others. Markers are literal and never empty. `Markers.accepts_iff` states the rule; the
standard markers are those of a note to do something, for which `/* TODO */` is too little:
it contains none of them and does not end in `TODO`.
-/

namespace CommentScope

/-- A rule that says which comment texts are wanted. -/
abbrev Matcher := String → Bool

/-- The markers of a rule: those to be contained and those to stand at the end. -/
structure Markers where
  contains : List String
  suffixes : List String
  deriving DecidableEq

namespace Markers

/-- Why markers are refused. -/
inductive Fault where
  | emptyMarker
  deriving DecidableEq

/-- The wording of a fault. -/
def Fault.message : Fault → String
  | .emptyMarker => "markers cannot be empty"

/-- The markers of notes to do something. -/
def standard : Markers where
  contains := ["//TODO", "// TODO", "TODO:", "TODO[", "TODO [", "TODO\r", "TODO\n"]
  suffixes := ["TODO"]

/-- Markers, none of which may be empty. -/
def of? (contains suffixes : List String) : Except Fault Markers :=
  if (contains ++ suffixes).any String.isEmpty then .error .emptyMarker
  else .ok ⟨contains, suffixes⟩

/-- Whether a text contains a marker or ends with one. -/
def accepts (m : Markers) (text : String) : Bool :=
  m.contains.any (fun marker ↦ Text.isInfix marker.toList text.toList) ||
    m.suffixes.any fun marker ↦ marker.toList.isSuffixOf text.toList

/-- **A text is wanted if it contains a marker of the first kind or ends with one of the second.** -/
theorem accepts_iff (m : Markers) (text : String) :
    m.accepts text = true ↔
      (∃ marker ∈ m.contains, marker.toList <:+: text.toList) ∨
        ∃ marker ∈ m.suffixes, marker.toList <:+ text.toList := by
  simp [accepts, Text.isInfix_iff]

end Markers

end CommentScope
