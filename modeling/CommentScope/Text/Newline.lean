/-!
# Line ends

A carriage return ends a line, alone or before a line feed, and so does a line feed. `unify` writes
every line end as one line feed.
-/

namespace CommentScope.Text.Newline

/-- Writes every line end as one line feed. -/
def unify : List Char → List Char
  | [] => []
  | '\r' :: '\n' :: rest => '\n' :: unify rest
  | c :: rest => (if c = '\r' then '\n' else c) :: unify rest

/-- **No carriage return is left.** -/
theorem carriageReturn_not_mem_unify (cs : List Char) : '\r' ∉ unify cs := by
  fun_induction unify cs with
  | case1 => simp
  | case2 rest ih => simp [ih]
  | case3 c rest _ ih => by_cases h : c = '\r' <;> simp [h, ih, Ne.symm]

/-- **Text without carriage returns stays as it is.** -/
theorem unify_eq_self {cs : List Char} (h : '\r' ∉ cs) : unify cs = cs := by
  fun_induction unify cs with
  | case1 => rfl
  | case2 rest ih => simp at h
  | case3 c rest _ ih =>
    simp only [List.mem_cons, not_or] at h
    simp [ih h.2, Ne.symm h.1]

end CommentScope.Text.Newline
