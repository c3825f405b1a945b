import CommentScope.Cli.Report
import CommentScope.Proofs.JsonText
import Mathlib.Data.List.Basic

/-!
# Printed text

Lines are printed without terminal escape sequences. A text without escape characters is printed as
it is (`line_eq`), and JSON is such a text: all of it is written in printable characters of ASCII
and line feeds (`isWritten_prettyAt`).
-/

namespace CommentScope

namespace Cli

theorem withoutSequences_eq_self {cs : List Char} (h : '\x1b' ∉ cs) :
    withoutSequences 0 cs = cs := by
  induction cs with
  | nil => rfl
  | cons c cs ih =>
    obtain ⟨hc, hcs⟩ := not_or.1 (List.mem_cons.not.1 h)
    rw [withoutSequences, if_neg (Ne.symm hc), ih hcs]

/-- **A text without escape characters is printed as it is.** -/
theorem line_eq {text : String} (h : '\x1b' ∉ text.toList) : line text = text ++ "\n" := by
  rw [line, withoutSequences_eq_self h, String.ofList_toList]

end Cli

namespace Json

/-- Whether a character is a printable one of ASCII. -/
def IsPrinted (c : Char) : Prop := 0x20 ≤ c.toNat ∧ c.toNat < 0x7F

instance (c : Char) : Decidable (IsPrinted c) := inferInstanceAs (Decidable (_ ∧ _))

/-- Whether a text has only characters that JSON is written with: printable ones of ASCII and line
feeds. -/
def IsWritten (s : String) : Prop := ∀ c ∈ s.toList, c = '\n' ∨ IsPrinted c

instance (s : String) : Decidable (IsWritten s) := List.decidableBAll _ s.toList

theorem IsWritten.append {s t : String} (hs : IsWritten s) (ht : IsWritten t) :
    IsWritten (s ++ t) := by
  intro c hc
  rw [String.toList_append, List.mem_append] at hc
  exact hc.elim (hs c) (ht c)

theorem IsWritten.intercalate {sep : String} {parts : List String} (hsep : IsWritten sep)
    (h : ∀ p ∈ parts, IsWritten p) : IsWritten (sep.intercalate parts) := by
  induction parts with
  | nil => exact fun c hc ↦ absurd hc (by simp)
  | cons p parts ih =>
    obtain ⟨hp, hparts⟩ := List.forall_mem_cons.1 h
    cases parts with
    | nil => rwa [String.intercalate_singleton]
    | cons q parts =>
      rw [String.intercalate_cons_cons]
      exact (hp.append hsep).append (ih hparts)

theorem IsWritten.escape_not_mem {s : String} (h : IsWritten s) : '\x1b' ∉ s.toList := by
  intro hmem
  rcases h _ hmem with h | h
  · exact absurd h (by decide)
  · exact absurd h (by decide)

theorem isPrinted_of_mem_hexDigits {count n : Nat} {c : Char} (h : c ∈ Text.hexDigits count n) :
    IsPrinted c := by
  induction count generalizing n with
  | zero => exact absurd h List.not_mem_nil
  | succ count ih =>
    rcases List.mem_append.1 h with h | h
    · exact ih h
    · obtain rfl := List.mem_singleton.1 h
      have hdigit : ∀ d : Fin 16, IsPrinted (Text.hexDigit d) := by decide
      exact hdigit ⟨n % 16, Nat.mod_lt _ (by decide)⟩

theorem isPrinted_of_mem_unitEscape {n : Nat} {c : Char} (h : c ∈ unitEscape n) : IsPrinted c := by
  rcases List.mem_cons.1 h with rfl | h
  · decide
  rcases List.mem_cons.1 h with rfl | h
  · decide
  exact isPrinted_of_mem_hexDigits h

/-- Characters are escaped unless they are printable ones of ASCII. -/
theorem isPrinted_of_mem_escaped {n : Nat} {c : Char} (h : c ∈ escaped n) : IsPrinted c := by
  rcases escaped_cases n with ⟨e, he, -, -, hn⟩ | ⟨hlow, hhigh, -, -, hn⟩ | ⟨-, hn⟩ | ⟨-, hn⟩
  · have hletters : letters.all (IsPrinted ·) = true := by decide
    rw [hn, List.mem_cons, List.mem_singleton] at h
    rcases h with rfl | rfl
    · decide
    · exact of_decide_eq_true (List.all_eq_true.1 hletters c he)
  · have hall : ∀ m : Fin 0x7F, 0x20 ≤ m.val → IsPrinted (Char.ofNat m.val) := by decide
    rw [hn, List.mem_singleton] at h
    subst h
    exact hall ⟨n, hhigh⟩ hlow
  · exact isPrinted_of_mem_unitEscape (hn ▸ h)
  · rw [hn, List.mem_append] at h
    exact h.elim isPrinted_of_mem_unitEscape isPrinted_of_mem_unitEscape

theorem isWritten_quotedPoints (points : List Nat) : IsWritten (quotedPoints points) := by
  intro c hc
  rw [quotedPoints, String.toList_ofList] at hc
  rcases List.mem_cons.1 hc with rfl | hc
  · exact .inr (by decide)
  rcases List.mem_append.1 hc with hc | hc
  · obtain ⟨n, -, hc⟩ := List.mem_flatMap.1 hc
    exact .inr (isPrinted_of_mem_escaped hc)
  · obtain rfl := List.mem_singleton.1 hc
    exact .inr (by decide)

theorem isWritten_repr (n : Nat) : IsWritten n.repr := by
  intro c hc
  have hmem : c ∈ Nat.toDigits 10 n := by simpa using hc
  have hdigit : c.isDigit = true := Nat.isDigit_of_mem_toDigits (by decide) (by decide) hmem
  obtain ⟨hlow, hhigh⟩ := Char.isDigit_iff_toNat.1 hdigit
  exact .inr ⟨Nat.le_trans (by decide) hlow, Nat.lt_of_le_of_lt hhigh (by decide)⟩

theorem isWritten_toString (n : Int) : IsWritten (toString n) := by
  cases n with
  | ofNat n => exact isWritten_repr n
  | negSucc n =>
    have hsign : IsWritten "-" := by decide
    exact hsign.append (isWritten_repr n.succ)

theorem isWritten_scalar? (j : Json) : IsWritten ((scalar? j).getD "") := by
  have hempty : IsWritten "" := by decide
  cases j with
  | null => show IsWritten "null"; decide
  | bool value => cases value <;> decide
  | int n => exact isWritten_toString n
  | decimal mantissa exponent =>
    have hsign : IsWritten "e" := by decide
    exact ((isWritten_toString mantissa).append hsign).append (isWritten_toString exponent)
  | notFinite => show IsWritten "NaN"; decide
  | str text => exact isWritten_quotedPoints _
  | unpaired points => exact isWritten_quotedPoints points
  | arr items => exact hempty
  | obj members => exact hempty

theorem isWritten_newline (level : Nat) : IsWritten (newline level) := by
  have hfeed : IsWritten "\n" := by decide
  refine hfeed.append fun c hc ↦ ?_
  rw [String.toList_ofList] at hc
  obtain rfl := List.eq_of_mem_replicate hc
  exact .inr (by decide)

theorem isWritten_bracketed {opening closing : String} {parts : List String} (level : Nat)
    (hopening : IsWritten opening) (hclosing : IsWritten closing) (h : ∀ p ∈ parts, IsWritten p) :
    IsWritten (bracketed opening closing level parts) := by
  have hcomma : IsWritten "," := by decide
  have hnext := isWritten_newline (level + 1)
  rw [bracketed]
  split
  · exact hopening.append hclosing
  · exact (((hopening.append hnext).append (.intercalate (hcomma.append hnext) h)).append
      (isWritten_newline level)).append hclosing

mutual

/-- **JSON is written in printable characters of ASCII and line feeds.** -/
theorem isWritten_prettyAt (level : Nat) (j : Json) : IsWritten (prettyAt level j) := by
  cases j with
  | arr items =>
    rw [prettyAt]
    exact isWritten_bracketed level (by decide) (by decide)
      (isWritten_prettyItems (level + 1) items)
  | obj members =>
    rw [prettyAt]
    exact isWritten_bracketed level (by decide) (by decide)
      (isWritten_prettyMembers (level + 1) members)
  | null => exact isWritten_scalar? .null
  | bool value => exact isWritten_scalar? (.bool value)
  | int n => exact isWritten_scalar? (.int n)
  | decimal mantissa exponent => exact isWritten_scalar? (.decimal mantissa exponent)
  | notFinite => exact isWritten_scalar? .notFinite
  | str text => exact isWritten_scalar? (.str text)
  | unpaired points => exact isWritten_scalar? (.unpaired points)

theorem isWritten_prettyItems (level : Nat) :
    ∀ items : List Json, ∀ p ∈ prettyItems level items, IsWritten p
  | [], p, hp => absurd hp List.not_mem_nil
  | j :: rest, p, hp => by
    rcases List.mem_cons.1 hp with rfl | hp
    · exact isWritten_prettyAt level j
    · exact isWritten_prettyItems level rest p hp

theorem isWritten_prettyMembers (level : Nat) :
    ∀ members : List (String × Json), ∀ p ∈ prettyMembers level members, IsWritten p
  | [], p, hp => absurd hp List.not_mem_nil
  | (name, j) :: rest, p, hp => by
    have hcolon : IsWritten ": " := by decide
    rcases List.mem_cons.1 hp with rfl | hp
    · exact ((isWritten_quotedPoints _).append hcolon).append (isWritten_prettyAt level j)
    · exact isWritten_prettyMembers level rest p hp

end

end Json

end CommentScope
