/-!
# Source languages

The languages whose comments can be located, and the names by which they are known to users.
A language is found again from its name (`ofName?_name`).
-/

namespace CommentScope

/-- A language whose comments can be located. -/
inductive Language where
  | csharp
  | java
  | python
  deriving DecidableEq, Inhabited

namespace Language

/-- Every language, in the order in which they are presented. -/
def all : List Language := [.csharp, .java, .python]

/-- The name under which a language is written in requests and reports. -/
def name : Language → String
  | .csharp => "csharp"
  | .java => "java"
  | .python => "python"

/-- The language with the given name; names are matched exactly. -/
def ofName? (s : String) : Option Language :=
  all.find? fun l ↦ l.name == s

theorem mem_all (l : Language) : l ∈ all := by
  cases l <;> simp [all]

/-- **A name determines its language.** -/
theorem ofName?_name (l : Language) : ofName? l.name = some l := by
  cases l <;> decide

end Language

end CommentScope
