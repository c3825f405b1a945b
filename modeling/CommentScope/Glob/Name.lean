/-!
# Patterns for names

A pattern for a name is a list of pieces: `*` stands for any text, `?` for one character, a set in
brackets for one of some characters, everything else for itself. A bracket that is not closed stands
for itself.

In a set, a hyphen between two characters stands for all characters from one to the other. The text
between the brackets is cut at these hyphens into chunks, each of which has characters of its own
between the end of one range and the start of the next. Ranges that run backwards are taken out
together with their ends. A set that then begins with `!` holds the characters that are not in it.
-/

namespace CommentScope.Glob

/-- A set of characters, given by ranges. -/
structure CharSet where
  negated : Bool
  ranges : List (Char × Char)
  deriving DecidableEq

namespace CharSet

/-- Whether a character is in a set. -/
def contains (s : CharSet) (c : Char) : Bool :=
  (s.ranges.any fun (a, b) ↦ decide (a ≤ c ∧ c ≤ b)) != s.negated

/-- Cuts the text of a set at its hyphens. `least` is the number of characters that the chunk still
has to take before a hyphen counts. -/
def cut (least : Nat) (chunk : List Char) : List Char → List (List Char)
  | [] => [chunk]
  | c :: rest =>
    if c = '-' ∧ least = 0 then chunk :: cut 2 [] rest
    else cut (least - 1) (chunk ++ [c]) rest

/-- The chunks of a set; a hyphen at the end stands for itself. -/
def chunksOf (text : List Char) : List (List Char) :=
  let chunks := cut (if text.head? = some '!' then 2 else 1) [] text
  match chunks.reverse with
  | [] :: last :: before => ((last ++ ['-']) :: before).reverse
  | _ => chunks

/-- Takes out the ranges that run backwards. -/
def dropEmpty : List (List Char) → List (List Char)
  | [] => []
  | chunk :: rest =>
    match dropEmpty rest with
    | [] => [chunk]
    | next :: more =>
      match chunk.getLast?, next.head? with
      | some a, some b =>
        -- The hyphen between these chunks made the range from `a` to `b`.
        if b < a then (chunk.dropLast ++ next.tail) :: more else chunk :: next :: more
      | _, _ => chunk :: next :: more

/-- The ranges of chunks: each character by itself, and what is between two chunks. -/
def rangesOf : List (List Char) → List (Char × Char)
  | [] => []
  | chunk :: rest =>
    let between := match chunk.getLast?, rest.head?.bind List.head? with
      | some a, some b => [(a, b)]
      | _, _ => []
    chunk.map (fun c ↦ (c, c)) ++ between ++ rangesOf rest

/-- The set for a text between brackets. -/
def ofText (text : List Char) : CharSet :=
  match dropEmpty (chunksOf text) with
  | ('!' :: chunk) :: rest => ⟨true, rangesOf (chunk :: rest)⟩
  | chunks => ⟨false, rangesOf chunks⟩

end CharSet

/-- A piece of a pattern for a name. -/
inductive Piece where
  | anyText
  | anyChar
  | oneOf (set : CharSet)
  | char (c : Char)
  deriving DecidableEq

/-- The text of a set behind its opening bracket, and what is behind the set. A closing bracket that
comes first belongs to the set. -/
def bracket? (text : List Char) : Option (List Char × List Char) :=
  let (first, rest) := match text with
    | '!' :: ']' :: rest => (['!', ']'], rest)
    | '!' :: rest => (['!'], rest)
    | ']' :: rest => ([']'], rest)
    | rest => ([], rest)
  match rest.dropWhile (· != ']') with
  | [] => none
  | _ :: behind => some (first ++ rest.takeWhile (· != ']'), behind)

/-- Reads pieces; `skip` characters belong to the piece before. -/
def piecesFrom (skip : Nat) : List Char → List Piece
  | [] => []
  | c :: rest =>
    match skip with
    | skip + 1 => piecesFrom skip rest
    | 0 =>
      if c = '*' then .anyText :: piecesFrom 0 rest
      else if c = '?' then .anyChar :: piecesFrom 0 rest
      else if c = '[' then
        match bracket? rest with
        | none => .char c :: piecesFrom 0 rest
        | some (text, _) => .oneOf (.ofText text) :: piecesFrom (text.length + 1) rest
      else .char c :: piecesFrom 0 rest

/-- The pieces of a pattern for a name. -/
def piecesOf (pattern : String) : List Piece := piecesFrom 0 pattern.toList

/-- Whether a text or one of its ends has a property. -/
def anySuffix (p : List Char → Bool) : List Char → Bool
  | [] => p []
  | c :: cs => p (c :: cs) || anySuffix p cs

theorem anySuffix_iff (p : List Char → Bool) (cs : List Char) :
    anySuffix p cs = true ↔ ∃ before after, cs = before ++ after ∧ p after = true := by
  induction cs with
  | nil =>
    constructor
    · exact fun h ↦ ⟨[], [], rfl, h⟩
    · rintro ⟨before, after, h, hp⟩
      obtain ⟨-, rfl⟩ := List.append_eq_nil_iff.mp h.symm
      exact hp
  | cons c cs ih =>
    simp only [anySuffix, Bool.or_eq_true, ih]
    constructor
    · rintro (h | ⟨before, after, rfl, h⟩)
      · exact ⟨[], c :: cs, rfl, h⟩
      · exact ⟨c :: before, after, rfl, h⟩
    · rintro ⟨before, after, h, hp⟩
      cases before with
      | nil => exact .inl (by simpa [h] using hp)
      | cons b before =>
        simp only [List.cons_append, List.cons.injEq] at h
        exact .inr ⟨before, after, h.2, hp⟩

/-- Whether a name fits a pattern. -/
def fits : List Piece → List Char → Bool
  | [], name => name.isEmpty
  | .anyText :: ps, name => anySuffix (fits ps) name
  | .anyChar :: ps, _ :: name => fits ps name
  | .oneOf s :: ps, c :: name => s.contains c && fits ps name
  | .char a :: ps, c :: name => a == c && fits ps name
  | _, [] => false

/-- **A star fits every text.** -/
theorem fits_anyText (name : List Char) : fits [.anyText] name = true :=
  (anySuffix_iff _ _).mpr ⟨name, [], by simp, rfl⟩

/-- A pattern without special characters fits only itself. -/
theorem fits_char_iff (pattern name : List Char) :
    fits (pattern.map .char) name = true ↔ name = pattern := by
  induction pattern generalizing name with
  | nil => simp [fits]
  | cons a pattern ih =>
    cases name with
    | nil => simp [fits]
    | cons c name =>
      simp only [List.map_cons, fits, Bool.and_eq_true, beq_iff_eq, ih, List.cons.injEq]
      exact ⟨fun h ↦ ⟨h.1.symm, h.2⟩, fun h ↦ ⟨h.1.symm, h.2⟩⟩

end CommentScope.Glob
