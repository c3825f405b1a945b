import CommentScope.Json.Basic
import CommentScope.Text.Hex

/-!
# Reading JSON

A text is cut into tokens, and the tokens drive a machine whose stack holds the arrays and objects
that have been begun. The first fault ends the reading; its position counts characters. A character
that begins no token is a fault wherever it stands, and where it stands says which; a fault inside
quotes counts only where quoted text may stand.

Besides what JSON allows, the words `NaN`, `Infinity` and `-Infinity` are read as numbers.
-/

namespace CommentScope.Json

/-- Why a text is not JSON. -/
inductive Fault.Cause where
  | valueExpected
  | nameExpected
  | colonExpected
  | commaExpected
  | unterminated
  | controlCharacter
  | badEscape
  | badUnicodeEscape
  | extraData
  /-- A whole number with more digits than are read. -/
  | tooManyDigits
  deriving DecidableEq

/-- A fault and its position. -/
structure Fault where
  cause : Fault.Cause
  position : Nat
  deriving DecidableEq

/-! ### Quoted text -/

/-- The number that four hexadecimal digits stand for. -/
def unit? (a b c d : Char) : Option Nat := do
  let a ← Text.hexValue? a
  let b ← Text.hexValue? b
  let c ← Text.hexValue? c
  let d ← Text.hexValue? d
  pure (4096 * a + 256 * b + 16 * c + d)

/-- What an escape of one character stands for. -/
def escape? : Char → Option Char
  | '"' => some '"'
  | '\\' => some '\\'
  | '/' => some '/'
  | 'b' => some '\x08'
  | 'f' => some '\x0c'
  | 'n' => some '\n'
  | 'r' => some '\r'
  | 't' => some '\t'
  | _ => none

/-- Quoted text that has been read: its code points, with escapes taken one by one, and what stands
behind the closing quote. -/
structure Quoted where
  points : List Nat
  stop : Nat
  rest : List Char

/-- Puts a code point in front of quoted text. -/
def Quoted.push (n : Nat) (q : Quoted) : Quoted := { q with points := n :: q.points }

/-- Reads quoted text that began at `start`, from the position `at` on. An escape of four digits
must have something behind it. -/
def readQuoted (start : Nat) (place : Nat) : List Char → Except Fault Quoted
  | [] => .error ⟨.unterminated, start⟩
  | '"' :: rest => .ok ⟨[], place + 1, rest⟩
  | ['\\'] => .error ⟨.unterminated, start⟩
  | '\\' :: 'u' :: a :: b :: c :: d :: e :: rest =>
    match unit? a b c d with
    | none => .error ⟨.badUnicodeEscape, place + 1⟩
    | some n => (readQuoted start (place + 6) (e :: rest)).map (.push n)
  | '\\' :: c :: rest =>
    if c = 'u' then .error ⟨.badUnicodeEscape, place + 1⟩
    else
      match escape? c with
      | none => .error ⟨.badEscape, place⟩
      | some c => (readQuoted start (place + 2) rest).map (.push c.toNat)
  | c :: rest =>
    if c.toNat < 0x20 then .error ⟨.controlCharacter, place⟩
    else (readQuoted start (place + 1) rest).map (.push c.toNat)

theorem length_rest_le_of_readQuoted {start place : Nat} {cs : List Char} {q : Quoted}
    (h : readQuoted start place cs = .ok q) : q.rest.length ≤ cs.length := by
  fun_induction readQuoted start place cs generalizing q with
  | case1 | case3 | case4 | case6 | case7 | case9 => simp at h
  | case2 place rest =>
    cases h
    exact Nat.le_succ _
  | case5 place a b c d e rest n hn ih =>
    cases hq : readQuoted start (place + 6) (e :: rest) with
    | error f => simp [hq, Except.map] at h
    | ok q₀ =>
      simp only [hq, Except.map, Except.ok.injEq] at h
      have := ih hq
      subst h
      simp only [Quoted.push, List.length_cons] at this ⊢
      omega
  | case8 place c rest hc _ c' hc' ih =>
    cases hq : readQuoted start (place + 2) rest with
    | error f => simp [hq, Except.map] at h
    | ok q₀ =>
      simp only [hq, Except.map, Except.ok.injEq] at h
      have := ih hq
      subst h
      simp only [Quoted.push, List.length_cons] at this ⊢
      omega
  | case10 place c rest _ _ _ _ hc ih =>
    cases hq : readQuoted start (place + 1) rest with
    | error f => simp [hq, Except.map] at h
    | ok q₀ =>
      simp only [hq, Except.map, Except.ok.injEq] at h
      have := ih hq
      subst h
      simp only [Quoted.push, List.length_cons] at this ⊢
      omega

/-- Whether a code point is the first of a pair of surrogates. -/
def isHighSurrogate (n : Nat) : Bool := 0xD800 ≤ n && n < 0xDC00

/-- Whether a code point is the second of a pair of surrogates. -/
def isLowSurrogate (n : Nat) : Bool := 0xDC00 ≤ n && n < 0xE000

/-- Joins pairs of surrogates. -/
def joinSurrogates : List Nat → List Nat
  | high :: low :: rest =>
    if isHighSurrogate high && isLowSurrogate low then
      (0x10000 + 0x400 * (high - 0xD800) + (low - 0xDC00)) :: joinSurrogates rest
    else high :: joinSurrogates (low :: rest)
  | l => l

/-- The text with the given code points; `none` if there is a surrogate among them. -/
def textOf? (points : List Nat) : Option String :=
  if points.any fun n ↦ isHighSurrogate n || isLowSurrogate n then none
  else some (String.ofList (points.map Char.ofNat))

/-- The value of quoted text. -/
def ofPoints (points : List Nat) : Json :=
  let points := joinSurrogates points
  match textOf? points with
  | some s => .str s
  | none => .unpaired points

/-! ### Numbers -/

/-- The number that decimal digits stand for. -/
def ofDigits (digits : List Char) : Nat := digits.foldl (fun n c ↦ 10 * n + (c.toNat - 48)) 0

/-- The digits at the start of a text. -/
def digitsOf (cs : List Char) : List Char := cs.takeWhile Char.isDigit

/-- A fraction at the start of a text, without its point: empty if there is none. -/
def fractionOf : List Char → List Char
  | '.' :: rest => digitsOf rest
  | _ => []

/-- An exponent at the start of a text: how many characters it has and its value. -/
def exponentOf : List Char → Option (Nat × Int)
  | e :: rest =>
    if e = 'e' ∨ e = 'E' then
      let (signs, negative, rest) := match rest with
        | '-' :: rest => (1, true, rest)
        | '+' :: rest => (1, false, rest)
        | rest => (0, false, rest)
      let digits := digitsOf rest
      if digits.isEmpty then none
      else
        let n : Int := ofDigits digits
        some (1 + signs + digits.length, if negative then -n else n)
    else none
  | [] => none

/-- A number at the start of a text without sign: how many characters it has, its mantissa, and
its exponent if it has a fraction or an exponent. -/
def unsignedOf (cs : List Char) : Option (Nat × Nat × Option Int) :=
  let whole := match cs with
    | '0' :: _ => ['0']
    | _ => digitsOf cs
  if whole.isEmpty then none
  else
    let rest := cs.drop whole.length
    let fraction := fractionOf rest
    let pointed := if fraction.isEmpty then 0 else fraction.length + 1
    let (more, exponent) := match exponentOf (rest.drop pointed) with
      | some (more, e) => (more, some (e - (fraction.length : Int)))
      | none => (0, if fraction.isEmpty then none else some (-(fraction.length : Int)))
    some (whole.length + pointed + more, ofDigits (whole ++ fraction), exponent)

/-! ### Tokens -/

/-- The most digits that a whole number may have. -/
def maxDigits : Nat := 4300

/-- A token. -/
inductive Token where
  | opening (object : Bool)
  | closing (object : Bool)
  | comma
  | colon
  /-- Quoted text, or what is wrong with it. -/
  | quoted (text : Except Fault (List Nat))
  /-- A value without parts, or what is wrong with it. -/
  | value (value : Except Fault Json)
  /-- Something that begins no token. -/
  | unknown

/-- The words that are values. -/
def words : List (String × Json) :=
  [("null", .null), ("true", .bool true), ("false", .bool false), ("NaN", .notFinite),
    ("Infinity", .notFinite), ("-Infinity", .notFinite)]

/-- A value without parts at the start of a text, and the number of characters that it has behind
its first one. -/
def scalarOf (place : Nat) (cs : List Char) : Option (Except Fault Json × Nat) :=
  match words.find? fun w ↦ w.1.toList.isPrefixOf cs with
  | some w => some (.ok w.2, w.1.length - 1)
  | none =>
    let (signs, negative, digits) := match cs with
      | '-' :: rest => (1, true, rest)
      | rest => (0, false, rest)
    match unsignedOf digits with
    | none => none
    | some (length, mantissa, exponent) =>
      let m : Int := if negative then -(mantissa : Int) else mantissa
      let value : Except Fault Json := match exponent with
        | some e => .ok (.decimal m e)
        | none => if length > maxDigits then .error ⟨.tooManyDigits, place⟩ else .ok (.int m)
      some (value, signs + length - 1)

/-- Whether a character may stand between tokens. -/
def isBlank (c : Char) : Bool := c == ' ' || c == '\t' || c == '\n' || c == '\r'

/-- The tokens of a text with their positions, up to the first that is none. -/
def tokens (place : Nat) : List Char → List (Nat × Token)
  | [] => []
  | c :: rest =>
    if isBlank c then tokens (place + 1) rest
    else
      let single (t : Token) := (place, t) :: tokens (place + 1) rest
      -- What cannot be read ends the tokens: the machine fails there at the latest.
      match c with
      | '[' => single (.opening false)
      | ']' => single (.closing false)
      | '\x7b' => single (.opening true)
      | '\x7d' => single (.closing true)
      | ',' => single .comma
      | ':' => single .colon
      | '"' =>
        match h : readQuoted place (place + 1) rest with
        | .error f => [(place, .quoted (.error f))]
        | .ok q =>
          have : q.rest.length ≤ rest.length := length_rest_le_of_readQuoted h
          (place, .quoted (.ok q.points)) :: tokens q.stop q.rest
      | c =>
        match scalarOf place (c :: rest) with
        | none => [(place, .unknown)]
        | some (value, more) => (place, .value value) :: tokens (place + 1 + more) (rest.drop more)
termination_by cs => cs.length
decreasing_by all_goals (simp only [List.length_cons, List.length_drop]; omega)

/-! ### The machine -/

/-- An array or object that has been begun, with its parts in reverse order. -/
inductive Container where
  | array (items : List Json)
  | object (members : List (String × Json)) (name : String)

/-- What has to come next, inside which containers. -/
inductive State where
  | value (around : List Container)
  /-- An item, or the end of the array just begun. -/
  | firstItem (around : List Container)
  /-- A name, or the end of the object just begun if `first`. -/
  | name (first : Bool) (members : List (String × Json)) (around : List Container)
  | colon (members : List (String × Json)) (name : String) (around : List Container)
  /-- A value has been read: a comma or the end of the innermost container. -/
  | after (value : Json) (around : List Container)

/-- The name for quoted text. A name with a lone surrogate is told apart by a replacement. -/
def nameOf (points : List Nat) : String :=
  String.ofList ((joinSurrogates points).map fun n ↦
    if isHighSurrogate n || isLowSurrogate n then '\uFFFD' else Char.ofNat n)

/-- What is wrong if the text ends here or goes on otherwise than it must. -/
def State.cause : State → Fault.Cause
  | .value _ | .firstItem _ => .valueExpected
  | .name .. => .nameExpected
  | .colon .. => .colonExpected
  | .after _ [] => .extraData
  | .after _ (_ :: _) => .commaExpected

/-- Goes on with a token where a value may stand. -/
def beginValue (around : List Container) (place : Nat) : Token → Except Fault State
  | .opening false => .ok (.firstItem around)
  | .opening true => .ok (.name true [] around)
  | .quoted (.ok points) => .ok (.after (ofPoints points) around)
  | .quoted (.error f) => .error f
  | .value (.ok j) => .ok (.after j around)
  | .value (.error f) => .error f
  | _ => .error ⟨.valueExpected, place⟩

/-- Goes on with a token. -/
def State.next (s : State) (place : Nat) (token : Token) : Except Fault State :=
  match s, token with
  | .value around, t => beginValue around place t
  -- An array or object may end where its first part could stand, but not behind a comma.
  | .firstItem around, .closing false => .ok (.after (.arr []) around)
  | .firstItem around, t => beginValue (.array [] :: around) place t
  | .name true members around, .closing true => .ok (.after (.ofMembers members.reverse) around)
  | .name _ members around, .quoted (.ok points) => .ok (.colon members (nameOf points) around)
  | .name _ _ _, .quoted (.error f) => .error f
  | .colon members key around, .colon => .ok (.value (.object members key :: around))
  | .after v (.array items :: around), .comma => .ok (.value (.array (v :: items) :: around))
  | .after v (.array items :: around), .closing false =>
    .ok (.after (.arr (v :: items).reverse) around)
  | .after v (.object members key :: around), .comma =>
    .ok (.name false ((key, v) :: members) around)
  | .after v (.object members key :: around), .closing true =>
    .ok (.after (.ofMembers ((key, v) :: members).reverse) around)
  | s, _ => .error ⟨s.cause, place⟩

/-- Runs the machine to the end of a text. -/
def run (stop : Nat) : State → List (Nat × Token) → Except Fault Json
  | .after v [], [] => .ok v
  | s, [] => .error ⟨s.cause, stop⟩
  | s, (place, t) :: rest =>
    match s.next place t with
    | .ok s => run stop s rest
    | .error f => .error f

/-- Reads a text that holds one value. -/
def read? (text : List Char) : Except Fault Json :=
  run text.length (.value []) (tokens 0 text)

end CommentScope.Json
