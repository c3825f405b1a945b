import CommentScope.Keyed
import CommentScope.Language
import CommentScope.Text.Case
import CommentScope.Text.Search

/-!
# Registered languages

A `Registry` knows a front end for each registered language and a language for each file extension.
Registering a language again replaces its front end, keeps its place among the languages, and adds
to the extensions; an extension belongs to the language that claimed it last. Extensions once
claimed are not given up.

The extension of a path is its last part behind a dot, dot included and in lower case; the directory
separators are the slash and the backslash.
-/

namespace CommentScope

/-- The extension of a path; empty if the file name has no dot. -/
def extensionOf (path : String) : String :=
  let separated := path.toList.map fun c ↦ if c = '\\' then '/' else c
  let name := (Text.splitOn '/' separated).getLastD []
  match (Text.splitOn '.' name).reverse with
  | last :: _ :: _ => "." ++ Text.lower (String.ofList last)
  | _ => ""

/-- Front ends by language and languages by extension, both in the order of registration. -/
structure Registry (φ : Type) where
  frontEnds : List (Language × φ)
  extensions : List (String × Language)

namespace Registry

variable {φ : Type}

/-- The registry that knows no language. -/
def empty : Registry φ := ⟨[], []⟩

/-- Registers a front end for a language, with the extensions it declares. -/
def register (r : Registry φ) (language : Language) (extensions : List String) (frontEnd : φ) :
    Registry φ where
  frontEnds := Keyed.put language frontEnd r.frontEnds
  extensions := extensions.foldl (fun known e ↦ Keyed.put e language known) r.extensions

/-- The front end of a language. -/
def frontEnd? (r : Registry φ) (language : Language) : Option φ := r.frontEnds.lookup language

/-- The language of a file, by its extension. -/
def languageFor? (r : Registry φ) (path : String) : Option Language :=
  r.extensions.lookup (extensionOf path)

/-- The front end for a file, by its extension. -/
def frontEndFor? (r : Registry φ) (path : String) : Option φ := do
  r.frontEnd? (← r.languageFor? path)

/-- Whether there is a front end for a file. -/
def isSupported (r : Registry φ) (path : String) : Bool := (r.frontEndFor? path).isSome

/-- The languages with a front end, in the order in which they were first registered. -/
def languages (r : Registry φ) : List Language := r.frontEnds.map (·.1)

/-- The extensions that belong to a language, in the order in which they were first claimed. -/
def knownExtensions (r : Registry φ) : List String := r.extensions.map (·.1)

/-- The extensions that belong to a language, in alphabetical order. -/
def sortedExtensions (r : Registry φ) : List String :=
  r.knownExtensions.mergeSort fun a b ↦ decide (a ≤ b)

/-- **Registering a language gives it that front end, and no other language another one.** -/
theorem frontEnd?_register (r : Registry φ) (language l : Language) (extensions : List String)
    (frontEnd : φ) :
    (r.register language extensions frontEnd).frontEnd? l =
      if l = language then some frontEnd else r.frontEnd? l :=
  Keyed.lookup_put language l frontEnd r.frontEnds

/-- Registering a language claims the extensions that are declared with it, and no others. -/
theorem lookup_extensions_register (r : Registry φ) (language : Language)
    (extensions : List String) (frontEnd : φ) (e : String) :
    (r.register language extensions frontEnd).extensions.lookup e =
      if e ∈ extensions then some language else r.extensions.lookup e := by
  have key : ∀ known : List (String × Language),
      (extensions.foldl (fun known e ↦ Keyed.put e language known) known).lookup e =
        if e ∈ extensions then some language else known.lookup e := by
    induction extensions with
    | nil => simp
    | cons a extensions ih =>
      intro known
      rw [List.foldl_cons, ih, Keyed.lookup_put]
      by_cases ha : e = a <;> by_cases he : e ∈ extensions <;> simp [ha, he]
  exact key r.extensions

end Registry

end CommentScope
