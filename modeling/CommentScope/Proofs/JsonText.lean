import CommentScope.Json.Printer
import CommentScope.Json.Reader

/-!
# Text in JSON is read back

What the writer of JSON puts into quotes, the reader takes out again: an escape of the writer stands
for the sixteen-bit units of one code point (`readQuoted_escaped`), the units of a text are joined
to its code points (`joinSurrogates_flatMap_units`), and so the quotes hold the text
(`tokens_quoted`). The machine then puts names and texts together, and **an object of texts is read
back** (`read?_compact_texts`).
-/

namespace CommentScope.Json

/-! ### Units -/

/-- The sixteen-bit units of a code point. -/
def units (n : Nat) : List Nat :=
  if n < 0x10000 then [n] else [0xD800 + (n - 0x10000) / 0x400, 0xDC00 + (n - 0x10000) % 0x400]

theorem isHighSurrogate_toNat (c : Char) : isHighSurrogate c.toNat = false := by
  rw [isHighSurrogate, Bool.and_eq_false_iff, decide_eq_false_iff_not, decide_eq_false_iff_not]
  have hvalid : c.toNat < 0xD800 ∨ 0xDFFF < c.toNat ∧ c.toNat < 0x110000 := c.valid
  omega

theorem isLowSurrogate_toNat (c : Char) : isLowSurrogate c.toNat = false := by
  rw [isLowSurrogate, Bool.and_eq_false_iff, decide_eq_false_iff_not, decide_eq_false_iff_not]
  have hvalid : c.toNat < 0xD800 ∨ 0xDFFF < c.toNat ∧ c.toNat < 0x110000 := c.valid
  omega

theorem toNat_lt (c : Char) : c.toNat < 0x110000 := by
  have hvalid : c.toNat < 0xD800 ∨ 0xDFFF < c.toNat ∧ c.toNat < 0x110000 := c.valid
  omega

/-- A code point beyond the basic plane is that of its pair of surrogates. -/
theorem joinSurrogates_pair {n : Nat} (h : 0x10000 ≤ n) (hn : n < 0x110000) (rest : List Nat) :
    joinSurrogates ((0xD800 + (n - 0x10000) / 0x400) :: (0xDC00 + (n - 0x10000) % 0x400) :: rest) =
      n :: joinSurrogates rest := by
  obtain ⟨k, rfl⟩ := Nat.exists_eq_add_of_le h
  rw [Nat.add_sub_cancel_left]
  have hhigh : isHighSurrogate (0xD800 + k / 0x400) = true := by
    rw [isHighSurrogate, Bool.and_eq_true, decide_eq_true_iff, decide_eq_true_iff]
    omega
  have hlow : isLowSurrogate (0xDC00 + k % 0x400) = true := by
    rw [isLowSurrogate, Bool.and_eq_true, decide_eq_true_iff, decide_eq_true_iff]
    omega
  rw [joinSurrogates, hhigh, hlow, Nat.add_sub_cancel_left, Nat.add_sub_cancel_left, Nat.add_assoc,
    Nat.div_add_mod]
  rfl

/-- A code point that is no surrogate stands for itself. -/
theorem joinSurrogates_cons {n : Nat} (h : isHighSurrogate n = false) (rest : List Nat) :
    joinSurrogates (n :: rest) = n :: joinSurrogates rest := by
  cases rest with
  | nil => rfl
  | cons low rest =>
    rw [joinSurrogates, h]
    rfl

/-- **The units of the characters of a text are joined to their code points.** -/
theorem joinSurrogates_flatMap_units (text : List Char) :
    joinSurrogates (text.flatMap fun c ↦ units c.toNat) = text.map Char.toNat := by
  induction text with
  | nil => rfl
  | cons c text ih =>
    rw [List.flatMap_cons, units]
    split
    · rw [List.singleton_append, joinSurrogates_cons (isHighSurrogate_toNat c), ih, List.map_cons]
    · rename_i h
      rw [List.cons_append, List.singleton_append,
        joinSurrogates_pair (Nat.not_lt.1 h) (toNat_lt c), ih, List.map_cons]

/-- The units of a text are a name for it. -/
theorem nameOf_flatMap_units (text : List Char) :
    nameOf (text.flatMap fun c ↦ units c.toNat) = String.ofList text := by
  rw [nameOf, joinSurrogates_flatMap_units, List.map_map]
  congr 1
  calc text.map _ = text.map id := List.map_congr_left fun c _ ↦ by
        simp [isHighSurrogate_toNat, isLowSurrogate_toNat]
    _ = text := List.map_id text

/-- The units of a text are the value of it. -/
theorem ofPoints_flatMap_units (text : List Char) :
    ofPoints (text.flatMap fun c ↦ units c.toNat) = .str (String.ofList text) := by
  have htext : textOf? (text.map Char.toNat) = some (String.ofList text) := by
    rw [textOf?, if_neg]
    · rw [List.map_map]
      congr 2
      calc text.map _ = text.map id := List.map_congr_left fun c _ ↦ Char.ofNat_toNat c
        _ = text := List.map_id text
    · simp [isHighSurrogate_toNat, isLowSurrogate_toNat]
  rw [ofPoints]
  simp only [joinSurrogates_flatMap_units, htext]

/-! ### Escapes -/

/-- The letters that stand behind a backslash. -/
def letters : List Char := ['"', '\\', 'b', 't', 'n', 'f', 'r']

/-- **How a code point is written**: by a letter, as it is, as a unit, or as a pair of
surrogates. -/
theorem escaped_cases (n : Nat) :
    (∃ e ∈ letters, escape? e = some (Char.ofNat n) ∧ n < 0x80 ∧ escaped n = ['\\', e]) ∨
    (0x20 ≤ n ∧ n < 0x7F ∧ n ≠ 0x22 ∧ n ≠ 0x5C ∧ escaped n = [Char.ofNat n]) ∨
    (n < 0x10000 ∧ escaped n = unitEscape n) ∨
    (0x10000 ≤ n ∧ escaped n =
      unitEscape (0xD800 + (n - 0x10000) / 0x400) ++
        unitEscape (0xDC00 + (n - 0x10000) % 0x400)) := by
  by_cases hquote : n = 0x22
  · subst hquote
    exact .inl ⟨'"', by decide⟩
  by_cases hslash : n = 0x5C
  · subst hslash
    exact .inl ⟨'\\', by decide⟩
  by_cases hb : n = 0x08
  · subst hb
    exact .inl ⟨'b', by decide⟩
  by_cases ht : n = 0x09
  · subst ht
    exact .inl ⟨'t', by decide⟩
  by_cases hn : n = 0x0A
  · subst hn
    exact .inl ⟨'n', by decide⟩
  by_cases hf : n = 0x0C
  · subst hf
    exact .inl ⟨'f', by decide⟩
  by_cases hr : n = 0x0D
  · subst hr
    exact .inl ⟨'r', by decide⟩
  rw [escaped, if_neg hquote, if_neg hslash, if_neg hb, if_neg ht, if_neg hn, if_neg hf, if_neg hr]
  right
  split
  · rename_i h
    exact .inl ⟨h.1, h.2, hquote, hslash, rfl⟩
  split
  · rename_i h
    exact .inr (.inl ⟨h, rfl⟩)
  · rename_i h
    exact .inr (.inr ⟨Nat.not_lt.1 h, rfl⟩)

/-- Four digits of a unit stand for it. -/
theorem exists_hexDigits {n : Nat} (h : n < 0x10000) :
    ∃ a b c d, Text.hexDigits 4 n = [a, b, c, d] ∧ unit? a b c d = some n := by
  have hvalue (m : Nat) : Text.hexValue? (Text.hexDigit (m % 16)) = some (m % 16) :=
    Text.hexValue?_hexDigit ⟨m % 16, Nat.mod_lt m (by decide)⟩
  refine ⟨_, _, _, _, rfl, ?_⟩
  rw [unit?, hvalue, hvalue, hvalue, hvalue]
  show some _ = some n
  congr 1
  omega

/-! ### Quoted text -/

/-- Puts code points in front of quoted text. -/
def Quoted.prepend (points : List Nat) (q : Quoted) : Quoted :=
  { q with points := points ++ q.points }

theorem readQuoted_unitEscape {n : Nat} (start place : Nat) (d : Char) (rest : List Char)
    (h : n < 0x10000) :
    readQuoted start place (unitEscape n ++ d :: rest) =
      (readQuoted start (place + 6) (d :: rest)).map (.push n) := by
  obtain ⟨a, b, c, e, hdigits, hunit⟩ := exists_hexDigits h
  rw [unitEscape, hdigits]
  show readQuoted start place ('\\' :: 'u' :: a :: b :: c :: e :: d :: rest) = _
  rw [readQuoted, hunit]

theorem readQuoted_escape {e c : Char} (start place : Nat) (rest : List Char) (he : e ≠ 'u')
    (h : escape? e = some c) :
    readQuoted start place ('\\' :: e :: rest) =
      (readQuoted start (place + 2) rest).map (.push c.toNat) := by
  rw [readQuoted, if_neg he, h]
  intro a b c d f rest hu
  exact absurd hu he

theorem readQuoted_plain {c : Char} (start place : Nat) (rest : List Char) (hquote : c ≠ '"')
    (hslash : c ≠ '\\') (h : 0x20 ≤ c.toNat) :
    readQuoted start place (c :: rest) =
      (readQuoted start (place + 1) rest).map (.push c.toNat) := by
  rw [readQuoted, if_neg (Nat.not_lt.2 h)]
  · exact hquote
  · exact fun hc ↦ absurd hc hslash
  · exact fun _ _ _ _ _ _ hc ↦ absurd hc hslash
  · exact fun _ _ hc ↦ absurd hc hslash

/-- **An escape stands for the units of its code point.** -/
theorem readQuoted_escaped (start place : Nat) (c d : Char) (rest : List Char) :
    ∃ next, readQuoted start place (escaped c.toNat ++ d :: rest) =
      (readQuoted start next (d :: rest)).map (.prepend (units c.toNat)) := by
  rcases escaped_cases c.toNat with ⟨e, he, hletter, hlt, h⟩ | ⟨hlow, hhigh, hquote, hslash, h⟩ |
    ⟨hlt, h⟩ | ⟨hle, h⟩
  · have hu : e ≠ 'u' := by
      rintro rfl
      exact absurd he (by decide)
    rw [Char.ofNat_toNat] at hletter
    rw [h, units, if_pos (Nat.lt_trans hlt (by decide))]
    exact ⟨place + 2, readQuoted_escape start place (d :: rest) hu hletter⟩
  · rw [h, units, if_pos (Nat.lt_trans hhigh (by decide)), Char.ofNat_toNat]
    refine ⟨place + 1, readQuoted_plain start place (d :: rest) ?_ ?_ hlow⟩
    · rintro rfl
      exact hquote rfl
    · rintro rfl
      exact hslash rfl
  · rw [h, units, if_pos hlt]
    exact ⟨place + 6, readQuoted_unitEscape start place d rest hlt⟩
  · have hchar := toNat_lt c
    rw [h, units, if_neg (Nat.not_lt.2 hle), List.append_assoc]
    refine ⟨place + 6 + 6, ?_⟩
    have hsecond := readQuoted_unitEscape start (place + 6) d rest
      (show 0xDC00 + (c.toNat - 0x10000) % 0x400 < 0x10000 by omega)
    have hfirst := readQuoted_unitEscape start place '\\'
      ('u' :: Text.hexDigits 4 (0xDC00 + (c.toNat - 0x10000) % 0x400) ++ d :: rest)
      (show 0xD800 + (c.toNat - 0x10000) / 0x400 < 0x10000 by omega)
    refine hfirst.trans ?_
    refine (congrArg _ hsecond).trans ?_
    cases readQuoted start (place + 6 + 6) (d :: rest) <;> rfl

/-- A text in quotes is read up to its closing quote. -/
theorem readQuoted_flatMap (start place : Nat) (text rest : List Char) :
    ∃ stop, readQuoted start place (text.flatMap (fun c ↦ escaped c.toNat) ++ '"' :: rest) =
      .ok ⟨text.flatMap fun c ↦ units c.toNat, stop, rest⟩ := by
  induction text generalizing place with
  | nil => exact ⟨place + 1, rfl⟩
  | cons c text ih =>
    rw [List.flatMap_cons, List.append_assoc]
    generalize hmore : text.flatMap (fun c ↦ escaped c.toNat) ++ '"' :: rest = more at ih
    cases more with
    | nil => simp at hmore
    | cons d more =>
      obtain ⟨next, hnext⟩ := readQuoted_escaped start place c d more
      obtain ⟨stop, hstop⟩ := ih next
      refine ⟨stop, ?_⟩
      rw [hnext, hstop]
      rfl

/-- **A text in quotes is one token, with the units of the text.** -/
theorem tokens_quoted (place : Nat) (s : String) (rest : List Char) :
    ∃ stop, tokens place ((quoted s).toList ++ rest) =
      (place, .quoted (.ok (s.toList.flatMap fun c ↦ units c.toNat))) :: tokens stop rest := by
  obtain ⟨stop, hstop⟩ := readQuoted_flatMap place (place + 1) s.toList rest
  refine ⟨stop, ?_⟩
  rw [quoted, quotedPoints, String.toList_ofList, List.flatMap_map, List.cons_append,
    List.append_assoc]
  show tokens place ('"' :: (s.toList.flatMap (fun c ↦ escaped c.toNat) ++ '"' :: rest)) = _
  rw [tokens, if_neg (by decide)]
  simp only
  split
  · rename_i f hread
    rw [hstop] at hread
    cases hread
  · rename_i q hread
    rw [hstop] at hread
    cases hread
    rfl

/-- A mark is one token. -/
theorem tokens_mark {c : Char} {t : Token} (place : Nat) (rest : List Char)
    (h : (c, t) ∈ [(':', Token.colon), (',', .comma), ('\x7b', .opening true),
      ('\x7d', .closing true)]) :
    tokens place (c :: rest) = (place, t) :: tokens (place + 1) rest := by
  simp only [List.mem_cons, List.not_mem_nil, or_false, Prod.mk.injEq] at h
  rcases h with ⟨rfl, rfl⟩ | ⟨rfl, rfl⟩ | ⟨rfl, rfl⟩ | ⟨rfl, rfl⟩ <;>
    rw [tokens, if_neg (by decide)] <;> rfl

/-! ### Objects of texts -/

/-- The members of an object of texts. -/
def ofTexts (texts : List (String × String)) : List (String × Json) :=
  texts.map fun m ↦ (m.1, .str m.2)

/-- What is written behind the opening brace of an object of texts. -/
def written (texts : List (String × String)) : List Char :=
  (",".intercalate (compactMembers (ofTexts texts))).toList ++ ['\x7d']

theorem written_singleton (name text : String) :
    written [(name, text)] = (quoted name ++ ":" ++ quoted text).toList ++ ['\x7d'] := by
  show (",".intercalate [_]).toList ++ _ = _
  rw [String.intercalate_singleton]
  rfl

theorem written_cons_cons (name text : String) (m : String × String)
    (texts : List (String × String)) :
    written ((name, text) :: m :: texts) =
      (quoted name ++ ":" ++ quoted text).toList ++ ',' :: written (m :: texts) := by
  show (",".intercalate (_ :: _ :: _)).toList ++ _ = _
  rw [String.intercalate_cons_cons, String.toList_append, String.toList_append, List.append_assoc,
    List.append_assoc]
  rfl

theorem next_name (first : Bool) (done : List (String × Json)) (place : Nat) (points : List Nat) :
    (State.name first done []).next place (.quoted (.ok points)) =
      .ok (.colon done (nameOf points) []) := by
  cases first <;> rfl

/-- The machine reads a member. -/
theorem run_member (stop place : Nat) (first : Bool) (done : List (String × Json))
    (name text : String) (rest : List Char) :
    ∃ next, run stop (.name first done [])
        (tokens place ((quoted name ++ ":" ++ quoted text).toList ++ rest)) =
      run stop (.after (.str text) [.object done name]) (tokens next rest) := by
  have hparts : (quoted name ++ ":" ++ quoted text).toList ++ rest =
      (quoted name).toList ++ ':' :: ((quoted text).toList ++ rest) := by
    have hcolon : ":".toList = [':'] := rfl
    rw [String.toList_append, String.toList_append, hcolon, List.append_assoc, List.append_assoc,
      List.singleton_append]
  obtain ⟨behind, hname⟩ := tokens_quoted place name (':' :: ((quoted text).toList ++ rest))
  obtain ⟨next, htext⟩ := tokens_quoted (behind + 1) text rest
  refine ⟨next, ?_⟩
  rw [hparts, hname, run, next_name, nameOf_flatMap_units, String.ofList_toList,
    tokens_mark (t := .colon) behind _ (by simp)]
  show run stop (.value [.object done name]) (tokens (behind + 1) _) = _
  rw [htext, run]
  show run stop (.after (ofPoints _) _) _ = _
  rw [ofPoints_flatMap_units, String.ofList_toList]

/-- The machine reads the members of an object one after the other. -/
theorem run_written (stop place : Nat) (first : Bool) (done : List (String × Json))
    (m : String × String) (texts : List (String × String)) :
    run stop (.name first done []) (tokens place (written (m :: texts))) =
      .ok (.ofMembers (done.reverse ++ ofTexts (m :: texts))) := by
  obtain ⟨name, text⟩ := m
  induction texts generalizing place first done name text with
  | nil =>
    obtain ⟨next, hmember⟩ := run_member stop place first done name text ['\x7d']
    rw [written_singleton, hmember, tokens_mark (t := .closing true) next [] (by simp), tokens]
    show Except.ok (Json.ofMembers ((name, Json.str text) :: done).reverse) = _
    rw [List.reverse_cons]
    rfl
  | cons n texts ih =>
    obtain ⟨name', text'⟩ := n
    obtain ⟨next, hmember⟩ := run_member stop place first done name text
      (',' :: written ((name', text') :: texts))
    rw [written_cons_cons, hmember, tokens_mark (t := .comma) next _ (by simp)]
    show run stop (.name false ((name, .str text) :: done) []) _ = _
    rw [ih, List.reverse_cons, List.append_assoc]
    rfl

/-- **An object of texts is read back.** -/
theorem read?_compact_texts (texts : List (String × String)) :
    read? (compact (.obj (ofTexts texts))).toList = .ok (.ofMembers (ofTexts texts)) := by
  have htext : (compact (.obj (ofTexts texts))).toList = '\x7b' :: written texts := by
    rw [compact, String.toList_append, String.toList_append, List.append_assoc]
    rfl
  rw [read?, htext, tokens_mark (t := .opening true) 0 _ (by simp)]
  show run _ (.name true [] []) _ = _
  cases texts with
  | nil =>
    have hclosing : written [] = ['\x7d'] := by decide
    rw [hclosing, tokens_mark (t := .closing true) 1 [] (by simp), tokens]
    rfl
  | cons m texts => exact run_written _ 1 true [] m texts

end CommentScope.Json
