/-!
# Source positions and spans

A `Point` is a row and a column as a parser reports them, unchecked. A `Span` is a range of source
text whose lines are natural numbers and whose end does not precede its start; both facts are part
of the type, so a span can only be had through `Span.between?` or from a constructor that keeps
them. Rows, lines and columns count from zero.

`between?_eq_ok` says that the check loses nothing: a span reports the two points it was made from.
`exists_between?_iff` says what the check asks for.
-/

namespace CommentScope

/-- A row and a column, as reported by a parser. -/
structure Point where
  row : Int
  column : Int
  deriving DecidableEq, Inhabited

/-- A range of source text whose end does not precede its start. Columns are not checked alone. -/
structure Span where
  startLine : Nat
  startColumn : Int
  endLine : Nat
  endColumn : Int
  ordered : startLine < endLine ∨ startLine = endLine ∧ startColumn ≤ endColumn
  deriving DecidableEq

/-- Whether two points delimit a piece of source: rows count from zero, and the second point is not
before the first. -/
def Point.Delimits (a b : Point) : Prop :=
  0 ≤ a.row ∧ (a.row < b.row ∨ a.row = b.row ∧ a.column ≤ b.column)

instance (a b : Point) : Decidable (a.Delimits b) :=
  inferInstanceAs (Decidable (_ ∧ _))

theorem Point.Delimits.row_le {a b : Point} (h : a.Delimits b) : a.row ≤ b.row :=
  h.2.elim Int.le_of_lt fun h ↦ Int.le_of_eq h.1

namespace Span

/-- Why two points do not delimit a span. -/
inductive Fault where
  | negativeLine
  | endBeforeStart
  deriving DecidableEq

/-- The wording of a fault. -/
def Fault.message : Fault → String
  | .negativeLine => "line numbers must be >= 0"
  | .endBeforeStart => "span end must not precede span start"

/-- The point at which a span starts. -/
def start (s : Span) : Point := ⟨s.startLine, s.startColumn⟩

/-- The point at which a span ends. -/
def stop (s : Span) : Point := ⟨s.endLine, s.endColumn⟩

/-- The span between two points. A negative line is reported before a wrong order. -/
def between? (start stop : Point) : Except Fault Span :=
  if start.row < 0 ∨ stop.row < 0 then
    .error .negativeLine
  else if h : start.row.toNat < stop.row.toNat ∨
      start.row.toNat = stop.row.toNat ∧ start.column ≤ stop.column then
    .ok ⟨start.row.toNat, start.column, stop.row.toNat, stop.column, h⟩
  else
    .error .endBeforeStart

/-- The empty span at a position. -/
def emptyAt (line : Nat) (column : Int) : Span :=
  ⟨line, column, line, column, .inr ⟨rfl, Int.le_refl _⟩⟩

/-- The span of `width` columns that starts at a position and stays on its line. -/
def onLine (line : Nat) (column : Int) (width : Nat) : Span :=
  ⟨line, column, line, column + width, .inr ⟨rfl, by omega⟩⟩

/-- **A span that passes the check has the two points it was made from.** -/
theorem between?_eq_ok {a b : Point} {s : Span} (h : between? a b = .ok s) :
    s.start = a ∧ s.stop = b := by
  obtain ⟨ar, ac⟩ := a
  obtain ⟨br, bc⟩ := b
  unfold between? at h
  split at h
  · simp at h
  · rename_i hneg
    split at h
    · cases h
      simp only [start, stop, Point.mk.injEq, and_true]
      simp only [not_or, Int.not_lt] at hneg
      omega
    · simp at h

/-- **The check refuses nothing else** than points that delimit no piece of source. -/
theorem exists_between?_iff {a b : Point} : (∃ s, between? a b = .ok s) ↔ a.Delimits b := by
  constructor
  · rintro ⟨s, hs⟩
    obtain ⟨rfl, rfl⟩ := between?_eq_ok hs
    exact ⟨Int.natCast_nonneg _, s.ordered.imp Int.ofNat_lt.2 fun h ↦ ⟨Int.ofNat_inj.2 h.1, h.2⟩⟩
  · rintro ⟨hrow, hord⟩
    have hneg : ¬ (a.row < 0 ∨ b.row < 0) := by omega
    have hord' : a.row.toNat < b.row.toNat ∨ a.row.toNat = b.row.toNat ∧ a.column ≤ b.column := by
      omega
    rw [between?, if_neg hneg, dif_pos hord']
    exact ⟨_, rfl⟩

/-- The check accepts the two ends of every span. -/
theorem between?_start_stop (s : Span) : between? s.start s.stop = .ok s := by
  have hneg : ¬ (s.start.row < 0 ∨ s.stop.row < 0) := by simp only [start, stop]; omega
  have hord : s.start.row.toNat < s.stop.row.toNat ∨
      s.start.row.toNat = s.stop.row.toNat ∧ s.start.column ≤ s.stop.column := s.ordered
  rw [between?, if_neg hneg, dif_pos hord]
  rfl

end Span

end CommentScope
