import CommentScope.CSharp.Outline
import CommentScope.FileReport
import CommentScope.Java.Outline
import CommentScope.Python.Outline

/-!
# The languages that come with the library

Each language with its parser and its file extension.
-/

namespace CommentScope

/-- The extensions of a language's files. -/
def Language.extensions : Language → List String
  | .csharp => [".cs"]
  | .java => [".java"]
  | .python => [".py"]

/-- The parser of a language. -/
def Language.parse : Language → String → Concrete
  | .csharp => CSharp.parse
  | .java => Java.parse
  | .python => Python.parse

/-- The front end of a language with a given parser. -/
def FrontEnd.ofLanguage (parse : Language → String → Concrete) (l : Language) : FrontEnd :=
  ⟨.ofLanguage l, parse l⟩

namespace Registry

/-- The registry of all languages, each with a front end of the given kind. -/
def ofAll {φ : Type} (frontEnd : Language → φ) : Registry φ :=
  Language.all.foldl (fun r l ↦ r.register l l.extensions (frontEnd l)) .empty

/-- The languages that come with the library. -/
def standard : Registry FrontEnd := ofAll (FrontEnd.ofLanguage Language.parse)

theorem frontEnd?_ofAll {φ : Type} (frontEnd : Language → φ) (l : Language) :
    (ofAll frontEnd).frontEnd? l = some (frontEnd l) := by
  cases l <;> rfl

end Registry

end CommentScope
