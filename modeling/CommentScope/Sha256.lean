import CommentScope.Text.Hex

/-!
# SHA-256

The digest by which the content of a file is identified. The message is padded with a one bit, zeros
and its length in bits to a multiple of 64 octets (`size_padded`) and mixed into the state block by
block.
-/

namespace CommentScope.Sha256

/-- The constants of the rounds. -/
def roundConstants : Array UInt32 := #[
  0x428a2f98, 0x71374491, 0xb5c0fbcf, 0xe9b5dba5, 0x3956c25b, 0x59f111f1, 0x923f82a4, 0xab1c5ed5,
  0xd807aa98, 0x12835b01, 0x243185be, 0x550c7dc3, 0x72be5d74, 0x80deb1fe, 0x9bdc06a7, 0xc19bf174,
  0xe49b69c1, 0xefbe4786, 0x0fc19dc6, 0x240ca1cc, 0x2de92c6f, 0x4a7484aa, 0x5cb0a9dc, 0x76f988da,
  0x983e5152, 0xa831c66d, 0xb00327c8, 0xbf597fc7, 0xc6e00bf3, 0xd5a79147, 0x06ca6351, 0x14292967,
  0x27b70a85, 0x2e1b2138, 0x4d2c6dfc, 0x53380d13, 0x650a7354, 0x766a0abb, 0x81c2c92e, 0x92722c85,
  0xa2bfe8a1, 0xa81a664b, 0xc24b8b70, 0xc76c51a3, 0xd192e819, 0xd6990624, 0xf40e3585, 0x106aa070,
  0x19a4c116, 0x1e376c08, 0x2748774c, 0x34b0bcb5, 0x391c0cb3, 0x4ed8aa4a, 0x5b9cca4f, 0x682e6ff3,
  0x748f82ee, 0x78a5636f, 0x84c87814, 0x8cc70208, 0x90befffa, 0xa4506ceb, 0xbef9a3f7, 0xc67178f2]

/-- The eight words of the state. -/
structure State where
  a : UInt32
  b : UInt32
  c : UInt32
  d : UInt32
  e : UInt32
  f : UInt32
  g : UInt32
  h : UInt32

/-- The state before the first block. -/
def State.initial : State :=
  ⟨0x6a09e667, 0xbb67ae85, 0x3c6ef372, 0xa54ff53a, 0x510e527f, 0x9b05688c, 0x1f83d9ab, 0x5be0cd19⟩

/-- The words of a state in order. -/
def State.words (s : State) : List UInt32 := [s.a, s.b, s.c, s.d, s.e, s.f, s.g, s.h]

/-- Adds two states word by word. -/
def State.add (s t : State) : State :=
  ⟨s.a + t.a, s.b + t.b, s.c + t.c, s.d + t.d, s.e + t.e, s.f + t.f, s.g + t.g, s.h + t.h⟩

/-- Turns a word to the right by a number of bits. -/
def rotateRight (x : UInt32) (n : UInt32) : UInt32 := (x >>> n) ||| (x <<< (32 - n))

/-- The number of zero octets between the one bit and the length. -/
def padding (size : Nat) : Nat := (119 - size % 64) % 64

/-- A number as eight octets, the highest first. -/
def octets8 (n : Nat) : Array UInt8 :=
  #[(n >>> 56).toUInt8, (n >>> 48).toUInt8, (n >>> 40).toUInt8, (n >>> 32).toUInt8,
    (n >>> 24).toUInt8, (n >>> 16).toUInt8, (n >>> 8).toUInt8, n.toUInt8]

/-- The padded message. -/
def padded (message : ByteArray) : Array UInt8 :=
  message.data ++ #[0x80] ++ Array.replicate (padding message.size) 0 ++ octets8 (8 * message.size)

/-- **The padded message is made of whole blocks.** -/
theorem size_padded (message : ByteArray) : (padded message).size % 64 = 0 := by
  have : message.data.size = message.size := rfl
  simp only [padded, octets8, Array.size_append, Array.size_replicate, padding, this]
  simp only [List.size_toArray, List.length_cons, List.length_nil]
  omega

/-- The word that starts at an octet. -/
def wordAt (bytes : Array UInt8) (i : Nat) : UInt32 :=
  let octet := fun k ↦ (bytes.getD (i + k) 0).toUInt32
  (octet 0 <<< 24) ||| (octet 1 <<< 16) ||| (octet 2 <<< 8) ||| octet 3

/-- Extends the sixteen words of a block by one word after the other. -/
def extend (words : Array UInt32) : Nat → Array UInt32
  | 0 => words
  | n + 1 =>
    let i := words.size
    let w := fun k ↦ words.getD (i - k) 0
    let s0 := rotateRight (w 15) 7 ^^^ rotateRight (w 15) 18 ^^^ (w 15 >>> 3)
    let s1 := rotateRight (w 2) 17 ^^^ rotateRight (w 2) 19 ^^^ (w 2 >>> 10)
    extend (words.push (w 16 + s0 + w 7 + s1)) n

/-- The sixty-four words by which a block is mixed in. -/
def schedule (bytes : Array UInt8) (start : Nat) : Array UInt32 :=
  extend (Array.ofFn (n := 16) fun i ↦ wordAt bytes (start + 4 * i)) 48

/-- One round. -/
def round (s : State) (word constant : UInt32) : State :=
  let s1 := rotateRight s.e 6 ^^^ rotateRight s.e 11 ^^^ rotateRight s.e 25
  let ch := (s.e &&& s.f) ^^^ (~~~s.e &&& s.g)
  let t1 := s.h + s1 + ch + constant + word
  let s0 := rotateRight s.a 2 ^^^ rotateRight s.a 13 ^^^ rotateRight s.a 22
  let maj := (s.a &&& s.b) ^^^ (s.a &&& s.c) ^^^ (s.b &&& s.c)
  ⟨t1 + (s0 + maj), s.a, s.b, s.c, s.d + t1, s.e, s.f, s.g⟩

/-- Mixes the block that starts at an octet into a state. -/
def mix (bytes : Array UInt8) (s : State) (start : Nat) : State :=
  let words := schedule bytes start
  let mixed := (List.range 64).foldl
    (fun s i ↦ round s (words.getD i 0) (roundConstants.getD i 0)) s
  s.add mixed

/-- The digest of a message in lower-case hexadecimal digits. -/
def hex (message : ByteArray) : String :=
  let bytes := padded message
  let final := (List.range (bytes.size / 64)).foldl (fun s i ↦ mix bytes s (64 * i)) .initial
  String.ofList (final.words.flatMap fun w ↦ Text.hexDigits 8 w.toNat)

end CommentScope.Sha256
