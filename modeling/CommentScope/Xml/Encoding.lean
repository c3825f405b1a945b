import CommentScope.Text.Utf8
import CommentScope.Xml.Charsets
import CommentScope.Xml.Declaration

/-!
# Encodings of documents

How a document is encoded follows from its first octets and from its declaration, which must agree.
Without a declaration it is UTF-8, or UTF-16 if it begins with a mark of that or has a zero among its
first two octets. A declaration can also name a character set; then what is behind the declaration is
read with that, however the declaration itself is encoded.
-/

namespace CommentScope.Xml

/-- Why a document cannot be read. -/
inductive Fault where
  | malformed
  /-- The document declares an encoding that is not known. -/
  | unknownEncoding (name : String)
  /-- The document declares an encoding that is known but cannot be used. -/
  | unusableEncoding (fault : CodecFault)
  deriving DecidableEq

/-- An encoding of documents. -/
inductive Encoding where
  | utf8
  | utf16 (littleEndian : Bool)
  /-- One octet for each character. -/
  | narrow (charset : Charset)
  deriving DecidableEq

namespace Encoding

/-! ### Decoding -/

/-- Reads octets in pairs; an octet that is left over is dropped. -/
def unitsOf (littleEndian : Bool) : List UInt8 → List Nat
  | a :: b :: rest =>
    (if littleEndian then 256 * b.toNat + a.toNat else 256 * a.toNat + b.toNat) ::
      unitsOf littleEndian rest
  | _ => []

/-- Joins pairs of surrogates; `high` is one that waits for its other half. -/
def joinFrom (high : Option Nat) : List Nat → Option (List Char)
  | [] => if high.isNone then some [] else none
  | n :: rest =>
    match high with
    | some h =>
      if 0xDC00 ≤ n ∧ n < 0xE000 then do
        let cs ← joinFrom none rest
        some (Char.ofNat (0x10000 + 1024 * (h - 0xD800) + (n - 0xDC00)) :: cs)
      else none
    | none =>
      if 0xD800 ≤ n ∧ n < 0xDC00 then joinFrom (some n) rest
      else if 0xDC00 ≤ n ∧ n < 0xE000 then none
      else do
        let cs ← joinFrom none rest
        some (Char.ofNat n :: cs)

/-- The text that octets stand for, if they stand for one. -/
def decode? (e : Encoding) (bytes : List UInt8) : Option (List Char) :=
  match e with
  | .utf8 => (String.fromUTF8? ⟨bytes.toArray⟩).map String.toList
  | .utf16 littleEndian =>
    if bytes.length % 2 = 0 then joinFrom none (unitsOf littleEndian bytes) else none
  | .narrow charset => charset.decode? bytes

/-! ### Declarations -/

/-- Whether characters have two octets. -/
def isWide : Encoding → Bool
  | .utf16 _ => true
  | _ => false

/-- What the octets of a document look like where they can only be ASCII. -/
def sight (e : Encoding) (bytes : List UInt8) : List Char :=
  match e with
  | .utf16 littleEndian => (unitsOf littleEndian bytes).map Char.ofNat
  | _ => bytes.map fun b ↦ Char.ofNat b.toNat

/-- The encodings that have a standard name. -/
def standardNames : List (String × Encoding) :=
  [("utf-8", .utf8), ("utf-16", .utf16 false), ("utf-16be", .utf16 false),
    ("utf-16le", .utf16 true), ("iso-8859-1", .narrow .latin1), ("us-ascii", .narrow .ascii)]

/-- The character set of a codec that a document declares by name. -/
def charset? (name : String) : Except Fault Charset :=
  match Codec.find? name with
  | none => .error (.unknownEncoding name)
  | some codec =>
    match codec.behaviour with
    | .charset s => .ok s
    | .foreign => .error .malformed
    | .severalOctets => .error (.unusableEncoding .severalOctets)
    | .strictOnly => .error (.unusableEncoding (.strictOnly name))
    | .asciiOnly => .error (.unusableEncoding .asciiOnly)
    | .undefined => .error (.unusableEncoding (.undefined name))

/-- The encoding that follows from the first octets, and what is behind the mark of it. -/
def detect : List UInt8 → Encoding × List UInt8
  | 0xFE :: 0xFF :: rest => (.utf16 false, rest)
  | 0xFF :: 0xFE :: rest => (.utf16 true, rest)
  | 0xEF :: 0xBB :: 0xBF :: rest => (.utf8, rest)
  | 0 :: rest => (.utf16 false, 0 :: rest)
  | a :: 0 :: rest => (.utf16 true, a :: 0 :: rest)
  | bytes => (.utf8, bytes)

/-- The encoding of a document that seems to be in one and declares another. Of those with a standard
name, a wide one can only be confirmed; other names are those of character sets. -/
def agree (found : Encoding) (name : String) : Except Fault Encoding :=
  match standardNames.lookup name.toLower with
  | some declared =>
    if found.isWide then
      if declared = found ∨ name.toLower = "utf-16" then .ok found else .error .malformed
    else if declared.isWide then .error .malformed
    else .ok declared
  | none => (charset? name).map .narrow

/-- The text of a document behind its declaration, and the declaration. -/
def textOf? (bytes : List UInt8) : Except Fault (Declaration × List Char) := do
  let (found, bytes) := detect bytes
  let sight := found.sight bytes
  let some (d, behind) := Declaration.read? sight | throw .malformed
  let encoding ← match d.encoding with
    | none => pure found
    | some name => agree found name
  let declared := sight.length - behind.length
  let some text := encoding.decode? (bytes.drop (if found.isWide then 2 * declared else declared))
    | throw .malformed
  pure (d, text)

end Encoding

end CommentScope.Xml
