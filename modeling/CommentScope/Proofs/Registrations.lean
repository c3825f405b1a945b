import CommentScope.Registry
import Mathlib.Data.List.Induction

/-!
# Registering one front end after another

A registry keeps the front end of each language apart from the language of each extension. What it
answers after any registrations is read off their history: a language has the front end that was
registered last for it (`Registry.frontEnd?_registerAll`), and an extension the language of the front
end that was the last to declare it (`Registry.lookup_extensions_registerAll`). The two are not always
the same front end. An extension is given up if its language is registered again without it; its files
still go to that language, and so to a front end that does not declare it. This is the only way in
which a file comes to a front end that does not declare its extension (`Registry.routes_registerAll`).
-/

namespace CommentScope

/-- A front end as it is registered: for a language, and with the extensions that it declares. -/
structure Registrant (φ : Type) where
  language : Language
  extensions : List String
  frontEnd : φ
  deriving DecidableEq

namespace Registry

variable {φ : Type}

/-- The registry after some registrations, the first of them first. -/
def registerAll (history : List (Registrant φ)) : Registry (Registrant φ) :=
  history.foldl (fun r x ↦ r.register x.language x.extensions x) .empty

/-- The last that was registered for a language. -/
def lastFor? (history : List (Registrant φ)) (l : Language) : Option (Registrant φ) :=
  (history.filter fun x ↦ x.language = l).getLast?

/-- The last that declared an extension. -/
def lastDeclaring? (history : List (Registrant φ)) (e : String) : Option (Registrant φ) :=
  (history.filter fun x ↦ e ∈ x.extensions).getLast?

/-- Whether the last that declared an extension was replaced: nothing behind it declares the
extension, but its language is registered again. -/
def IsGivenUp (history : List (Registrant φ)) (e : String) : Prop :=
  ∃ before x behind, history = before ++ x :: behind ∧ e ∈ x.extensions ∧
    (∀ y ∈ behind, e ∉ y.extensions) ∧ ∃ y ∈ behind, y.language = x.language

variable {history : List (Registrant φ)} {l : Language} {e : String} {x f : Registrant φ}

theorem registerAll_concat (history : List (Registrant φ)) (x : Registrant φ) :
    registerAll (history ++ [x]) = (registerAll history).register x.language x.extensions x :=
  List.foldl_append

/-- The last member that satisfies a predicate stands before members that do not. -/
theorem getLast?_filter_eq_some_iff {α : Type} {p : α → Prop} [DecidablePred p] {as : List α}
    {a : α} : (as.filter fun b ↦ p b).getLast? = some a ↔
      ∃ before behind, as = before ++ a :: behind ∧ p a ∧ ∀ b ∈ behind, ¬ p b := by
  rw [List.getLast?_filter, List.find?_eq_some_iff_append]
  simp only [decide_eq_true_eq, Bool.not_eq_true', decide_eq_false_iff_not]
  constructor
  · rintro ⟨ha, behind, before, hsplit, hbehind⟩
    refine ⟨before.reverse, behind.reverse, ?_, ha, fun b hb ↦ hbehind b (List.mem_reverse.1 hb)⟩
    rw [← List.reverse_reverse as, hsplit]
    simp
  · rintro ⟨before, behind, rfl, ha, hbehind⟩
    exact ⟨ha, behind.reverse, before.reverse, by simp,
      fun b hb ↦ hbehind b (List.mem_reverse.1 hb)⟩

/-- There is a last member that satisfies a predicate if there is any. -/
theorem exists_getLast?_filter_iff {α : Type} {p : α → Prop} [DecidablePred p] {as : List α} :
    (∃ a, (as.filter fun b ↦ p b).getLast? = some a) ↔ ∃ a ∈ as, p a := by
  rw [← Option.isSome_iff_exists, List.getLast?_filter, List.find?_isSome]
  simp only [List.mem_reverse, decide_eq_true_eq]

/-- A language has a present front end once it is registered. -/
theorem exists_lastFor? (h : ∃ x ∈ history, x.language = l) : ∃ f, lastFor? history l = some f :=
  exists_getLast?_filter_iff.2 h

/-- Whoever declared an extension last, its language has a present front end. -/
theorem exists_present (h : ∃ x ∈ history, e ∈ x.extensions) :
    ∃ x f, lastDeclaring? history e = some x ∧ lastFor? history x.language = some f := by
  obtain ⟨x, hx⟩ := exists_getLast?_filter_iff.2 h
  have hmem := (List.mem_filter.1 (List.mem_of_getLast? hx)).1
  obtain ⟨f, hf⟩ := exists_lastFor? ⟨x, hmem, rfl⟩
  exact ⟨x, f, hx, hf⟩

/-! ### What a registry answers -/

/-- **A language has the front end that was registered last for it.** -/
theorem frontEnd?_registerAll (history : List (Registrant φ)) (l : Language) :
    (registerAll history).frontEnd? l = lastFor? history l := by
  induction history using List.reverseRecOn with
  | nil => rfl
  | append_singleton history x ih =>
    rw [registerAll_concat, frontEnd?_register, ih, lastFor?, lastFor?, List.filter_append]
    by_cases hl : l = x.language
    · simp [hl]
    · simp [hl, Ne.symm hl]

/-- **An extension has the language of the last front end that declared it.** -/
theorem lookup_extensions_registerAll (history : List (Registrant φ)) (e : String) :
    (registerAll history).extensions.lookup e =
      (lastDeclaring? history e).map Registrant.language := by
  induction history using List.reverseRecOn with
  | nil => rfl
  | append_singleton history x ih =>
    rw [registerAll_concat, lookup_extensions_register, ih, lastDeclaring?, lastDeclaring?,
      List.filter_append]
    by_cases he : e ∈ x.extensions <;> simp [he]

/-- **The known extensions are those that have ever been declared.** -/
theorem mem_knownExtensions_registerAll_iff :
    e ∈ (registerAll history).knownExtensions ↔ ∃ x ∈ history, e ∈ x.extensions := by
  have hkey : e ∈ (registerAll history).knownExtensions ↔
      ((registerAll history).extensions.lookup e).isSome = true := by
    rw [knownExtensions, List.mem_map, List.lookup_isSome_iff]
    simp only [beq_iff_eq, eq_comm (a := e)]
  rw [hkey, lookup_extensions_registerAll, Option.isSome_map, Option.isSome_iff_exists,
    lastDeclaring?, exists_getLast?_filter_iff]

/-- **A file goes to the present front end of the language that declared its extension last.** -/
theorem frontEndFor?_registerAll_eq_some_iff {path : String} :
    (registerAll history).frontEndFor? path = some f ↔
      ∃ x, lastDeclaring? history (extensionOf path) = some x ∧
        lastFor? history x.language = some f := by
  rw [frontEndFor?, languageFor?, lookup_extensions_registerAll]
  cases lastDeclaring? history (extensionOf path) with
  | none => simp
  | some x => simp [frontEnd?_registerAll]

/-! ### Extensions that are given up -/

/-- The present front end of the language that declared an extension last declares it too, unless
the extension is given up. -/
theorem mem_extensions_iff (hx : lastDeclaring? history e = some x)
    (hf : lastFor? history x.language = some f) :
    e ∈ f.extensions ↔ ¬ IsGivenUp history e := by
  constructor
  · rintro he ⟨front, y, back, hsplit, hy, hback, z, hz, hlanguage⟩
    have hlast : lastDeclaring? history e = some y :=
      getLast?_filter_eq_some_iff.2 ⟨front, back, hsplit, hy, hback⟩
    cases hx.symm.trans hlast
    -- The language is registered again behind `x`, so its present front end stands there too.
    obtain ⟨w, hw⟩ := exists_lastFor? ⟨z, hz, hlanguage⟩
    have hpresent : lastFor? history x.language = some w := by
      rw [lastFor?, hsplit, List.append_cons, List.filter_append, List.getLast?_append]
      rw [lastFor?] at hw
      rw [hw, Option.some_or]
    cases hf.symm.trans hpresent
    exact hback f (List.mem_filter.1 (List.mem_of_getLast? hw)).1 he
  · intro hkept
    obtain ⟨front, back, hsplit', hx', hback⟩ := getLast?_filter_eq_some_iff.1 hx
    have hnever : ∀ y ∈ back, y.language ≠ x.language := fun y hy hlanguage ↦
      hkept ⟨front, x, back, hsplit', hx', hback, y, hy, hlanguage⟩
    have hpresent : lastFor? history x.language = some x :=
      getLast?_filter_eq_some_iff.2 ⟨front, back, hsplit', rfl, hnever⟩
    cases hf.symm.trans hpresent
    exact hx'

/-- A language that keeps its extensions whenever it is registered again gives none of them up. -/
theorem not_isGivenUp (h : history.Pairwise fun x y ↦ x.language = y.language →
    x.extensions ⊆ y.extensions) (e : String) : ¬ IsGivenUp history e := by
  rintro ⟨front, x, back, rfl, hx, hback, y, hy, hlanguage⟩
  have hkeeps := (List.pairwise_cons.1 (List.pairwise_append.1 h).2.1).1 y hy hlanguage.symm
  exact hback y hy (hkeeps hx)

/-- **A file goes to a front end that declares its extension, unless that was given up.** After any
registrations: the front end of a file is the last that was registered for its language, and declares
the extension of the file just if that is not given up. There is one for every file whose extension
has ever been declared. The known extensions are those that have ever been declared; each of them is
declared by the present front end of some language, or it is given up. Nothing is given up if
languages that are registered again keep their extensions. -/
theorem routes_registerAll (history : List (Registrant φ)) :
    let r := registerAll history
    (∀ path f, r.frontEndFor? path = some f →
      lastFor? history f.language = some f ∧
        (extensionOf path ∈ f.extensions ↔ ¬ IsGivenUp history (extensionOf path))) ∧
    (∀ path, r.isSupported path = true ↔ ∃ x ∈ history, extensionOf path ∈ x.extensions) ∧
    (∀ e, e ∈ r.knownExtensions ↔ ∃ x ∈ history, e ∈ x.extensions) ∧
    (∀ e ∈ r.knownExtensions, ¬ IsGivenUp history e →
      ∃ l f, r.frontEnd? l = some f ∧ e ∈ f.extensions) ∧
    ((history.Pairwise fun x y ↦ x.language = y.language → x.extensions ⊆ y.extensions) →
      ∀ e, ¬ IsGivenUp history e) := by
  refine ⟨fun path f h ↦ ?_, fun path ↦ ?_, fun e ↦ mem_knownExtensions_registerAll_iff,
    fun e he hkept ↦ ?_, not_isGivenUp⟩
  · obtain ⟨x, hx, hf⟩ := frontEndFor?_registerAll_eq_some_iff.1 h
    obtain ⟨_, _, -, hlanguage, -⟩ := getLast?_filter_eq_some_iff.1 hf
    exact ⟨hlanguage ▸ hf, mem_extensions_iff hx hf⟩
  · rw [isSupported, Option.isSome_iff_exists]
    constructor
    · rintro ⟨f, h⟩
      obtain ⟨x, hx, -⟩ := frontEndFor?_registerAll_eq_some_iff.1 h
      exact exists_getLast?_filter_iff.1 ⟨x, hx⟩
    · intro h
      obtain ⟨x, f, hx, hf⟩ := exists_present h
      exact ⟨f, frontEndFor?_registerAll_eq_some_iff.2 ⟨x, hx, hf⟩⟩
  · obtain ⟨x, f, hx, hf⟩ := exists_present (mem_knownExtensions_registerAll_iff.1 he)
    refine ⟨x.language, f, ?_, (mem_extensions_iff hx hf).2 hkept⟩
    rw [frontEnd?_registerAll, hf]

/-- C# is registered for its files, Java for its own, and then C# for scripts. -/
def replaced : List (Registrant String) :=
  [⟨.csharp, [".cs"], "files"⟩, ⟨.java, [".java"], "java"⟩, ⟨.csharp, [".csx"], "scripts"⟩]

/-- C# files still go to C#, and so to the front end for scripts, which does not declare their
extension; no other does. Java files go to a front end that declares theirs. -/
theorem routes_registerAll_replaced :
    let scripts : Registrant String := ⟨.csharp, [".csx"], "scripts"⟩
    IsGivenUp replaced ".cs" ∧ (registerAll replaced).frontEndFor? "a.cs" = some scripts ∧
      lastFor? replaced .csharp = some scripts ∧
      ".cs" ∈ (registerAll replaced).knownExtensions ∧
      (∀ l f, (registerAll replaced).frontEnd? l = some f → ".cs" ∉ f.extensions) ∧
      ¬ IsGivenUp replaced ".java" := by
  intro scripts
  have hgiven : IsGivenUp replaced ".cs" :=
    ⟨[], ⟨.csharp, [".cs"], "files"⟩, [⟨.java, [".java"], "java"⟩, scripts], rfl, by decide,
      by decide, scripts, by decide, rfl⟩
  obtain ⟨hfiles, -, hknown, -⟩ := routes_registerAll replaced
  have hscripts : (registerAll replaced).frontEndFor? "a.cs" = some scripts := by decide +kernel
  have hjava : (registerAll replaced).frontEndFor? "A.java" =
      some ⟨.java, [".java"], "java"⟩ := by decide +kernel
  have hextension : extensionOf "A.java" = ".java" := by decide +kernel
  refine ⟨hgiven, hscripts, (hfiles "a.cs" _ hscripts).1,
    (hknown ".cs").2 ⟨⟨.csharp, [".cs"], "files"⟩, by decide, by decide⟩, fun l f h ↦ ?_,
    hextension ▸ (hfiles "A.java" _ hjava).2.1 ?_⟩
  · cases l <;> cases h <;> decide
  · rw [hextension]
    decide

end Registry

end CommentScope
