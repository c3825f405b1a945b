/-!
# Reading UTF-8

Decoding never fails: each maximal part of the input that starts a character and cannot be
continued, and each octet that cannot start one, is read as U+FFFD. `Utf8.slice` reads the text
between two offsets of a source; offsets beyond the end mean the end.

`decode_cons` gives the decoder as a plain recursion; it is run on an accumulator so that long
inputs need no deep stack.
-/

namespace CommentScope.Utf8

/-- What stands for input that cannot be decoded. -/
def replacement : Char := '\uFFFD'

/-- How a character goes on after its first octet: the number of octets still to come, the bounds of
the next one, and the bits known so far. -/
structure Lead where
  owed : Nat
  low : UInt8
  high : UInt8
  bits : Nat

/-- What the first octet of a character says about the rest of it. The bounds on the second octet
exclude overlong forms, surrogates and numbers that no character has. -/
def lead? (b : UInt8) : Option Lead :=
  if b < 0x80 then some ⟨0, 0, 0, b.toNat⟩
  else if b < 0xC2 then none
  else if b < 0xE0 then some ⟨1, 0x80, 0xBF, b.toNat - 0xC0⟩
  else if b = 0xE0 then some ⟨2, 0xA0, 0xBF, 0⟩
  else if b = 0xED then some ⟨2, 0x80, 0x9F, 0xD⟩
  else if b < 0xF0 then some ⟨2, 0x80, 0xBF, b.toNat - 0xE0⟩
  else if b = 0xF0 then some ⟨3, 0x90, 0xBF, 0⟩
  else if b < 0xF4 then some ⟨3, 0x80, 0xBF, b.toNat - 0xF0⟩
  else if b = 0xF4 then some ⟨3, 0x80, 0x8F, 4⟩
  else none

/-- Takes the octets that a character still owes. Yields its number if they are all there, and what
is left of the input after those that are. -/
def continuation : (owed : Nat) → (low high : UInt8) → (bits : Nat) → List UInt8 →
    Option Nat × List UInt8
  | 0, _, _, bits, rest => (some bits, rest)
  | _ + 1, _, _, _, [] => (none, [])
  | owed + 1, low, high, bits, b :: rest =>
    if low ≤ b ∧ b ≤ high then continuation owed 0x80 0xBF (64 * bits + (b.toNat - 0x80)) rest
    else (none, b :: rest)

theorem length_continuation_le (owed : Nat) (low high : UInt8) (bits : Nat) (bytes : List UInt8) :
    (continuation owed low high bits bytes).2.length ≤ bytes.length := by
  induction owed generalizing low high bits bytes with
  | zero => simp [continuation]
  | succ owed ih =>
    cases bytes with
    | nil => simp [continuation]
    | cons b rest =>
      simp only [continuation]
      split
      · exact Nat.le_succ_of_le (ih _ _ _ _)
      · exact Nat.le_refl _

/-- The character at the start of an input, and the input after it. -/
def next (b : UInt8) (rest : List UInt8) : Char × List UInt8 :=
  match lead? b with
  | none => (replacement, rest)
  | some l =>
    match continuation l.owed l.low l.high l.bits rest with
    | (some n, rest) => (Char.ofNat n, rest)
    | (none, rest) => (replacement, rest)

theorem length_next_le (b : UInt8) (rest : List UInt8) :
    (next b rest).2.length ≤ rest.length := by
  unfold next
  split
  · exact Nat.le_refl _
  · rename_i l _
    have h := length_continuation_le l.owed l.low l.high l.bits rest
    split <;> simp_all

/-- Decodes behind the characters of `done`, which are in reverse order. -/
def decodeOnto (done : List Char) : List UInt8 → List Char
  | [] => done.reverse
  | b :: rest => decodeOnto ((next b rest).1 :: done) (next b rest).2
termination_by bytes => bytes.length
decreasing_by exact Nat.lt_succ_of_le (length_next_le b rest)

/-- The characters that octets stand for. -/
def decode (bytes : List UInt8) : List Char := decodeOnto [] bytes

theorem decodeOnto_nil (done : List Char) : decodeOnto done [] = done.reverse := by
  rw [decodeOnto.eq_def]

theorem decodeOnto_cons (done : List Char) (b : UInt8) (rest : List UInt8) :
    decodeOnto done (b :: rest) = decodeOnto ((next b rest).1 :: done) (next b rest).2 := by
  rw [decodeOnto.eq_def]

theorem decodeOnto_eq (done : List Char) (bytes : List UInt8) :
    decodeOnto done bytes = done.reverse ++ decode bytes := by
  induction h : bytes.length using Nat.strongRecOn generalizing bytes done with
  | ind n ih =>
    cases bytes with
    | nil => simp [decode, decodeOnto_nil]
    | cons b rest =>
      have hlt : (next b rest).2.length < n := by
        have := length_next_le b rest
        simp only [List.length_cons] at h
        omega
      rw [decode, decodeOnto_cons, decodeOnto_cons, ih _ hlt _ _ rfl, ih _ hlt _ _ rfl]
      simp

@[simp] theorem decode_nil : decode [] = [] := by simp [decode, decodeOnto_nil]

/-- **The decoder takes one character after the other.** -/
theorem decode_cons (b : UInt8) (rest : List UInt8) :
    decode (b :: rest) = (next b rest).1 :: decode (next b rest).2 := by
  rw [decode, decodeOnto_cons, decodeOnto_eq]
  simp

/-- The text that octets stand for. -/
def text (bytes : ByteArray) : String := String.ofList (decode bytes.toList)

/-- The text between two offsets of a source. -/
def slice (source : ByteArray) (start stop : Nat) : String := text (source.extract start stop)

/-- The mark that may stand at the start of a file to say that it is UTF-8. -/
def byteOrderMark : Char := '\uFEFF'

/-- The text of a whole file: a leading byte order mark does not belong to it. -/
def fileText (bytes : ByteArray) : String :=
  match decode bytes.toList with
  | c :: rest => if c = byteOrderMark then String.ofList rest else String.ofList (c :: rest)
  | [] => ""

end CommentScope.Utf8
