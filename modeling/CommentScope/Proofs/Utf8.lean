import CommentScope.Text.Utf8

/-!
# Encoded text is read back

The octets of a text are those of its characters, one after the other, and the decoder reads each
character back (`Utf8.decode_encodeChar_append`). Slices of an encoded text whose ends stand between
characters are therefore texts: the characters between their ends (`Utf8.slice_toUTF8`).
-/

namespace CommentScope.Utf8

/-! ### Characters -/

theorem toNat_ofNat_of_lt {n : Nat} (h : n < 256) : (UInt8.ofNat n).toNat = n := by
  rw [UInt8.toNat_ofNat', Nat.mod_eq_of_lt h]

/-- What the first octet says, in numbers. -/
theorem lead?_ofNat {n : Nat} (h : n < 256) :
    lead? (UInt8.ofNat n) =
      if n < 0x80 then some ⟨0, 0, 0, n⟩
      else if n < 0xC2 then none
      else if n < 0xE0 then some ⟨1, 0x80, 0xBF, n - 0xC0⟩
      else if n = 0xE0 then some ⟨2, 0xA0, 0xBF, 0⟩
      else if n = 0xED then some ⟨2, 0x80, 0x9F, 0xD⟩
      else if n < 0xF0 then some ⟨2, 0x80, 0xBF, n - 0xE0⟩
      else if n = 0xF0 then some ⟨3, 0x90, 0xBF, 0⟩
      else if n < 0xF4 then some ⟨3, 0x80, 0xBF, n - 0xF0⟩
      else if n = 0xF4 then some ⟨3, 0x80, 0x8F, 4⟩
      else none := by
  simp only [lead?, UInt8.lt_iff_toNat_lt, ← UInt8.toNat_inj, toNat_ofNat_of_lt h]
  rfl

theorem continuation_ofNat {low high : UInt8} {n : Nat} (hl : low.toNat ≤ n) (hh : n ≤ high.toNat)
    (owed bits : Nat) (rest : List UInt8) :
    continuation (owed + 1) low high bits (UInt8.ofNat n :: rest) =
      continuation owed 0x80 0xBF (64 * bits + (n - 0x80)) rest := by
  have hn : n < 256 := Nat.lt_of_le_of_lt hh high.toNat_lt
  have hin : low ≤ UInt8.ofNat n ∧ UInt8.ofNat n ≤ high := by
    rw [UInt8.le_iff_toNat_le, UInt8.le_iff_toNat_le, toNat_ofNat_of_lt hn]
    exact ⟨hl, hh⟩
  rw [continuation, if_pos hin, toNat_ofNat_of_lt hn]

theorem next_of_lead {b : UInt8} {l : Lead} {rest rest' : List UInt8} {n : Nat}
    (hl : lead? b = some l)
    (hc : continuation l.owed l.low l.high l.bits rest = (some n, rest')) :
    next b rest = (Char.ofNat n, rest') := by
  simp only [next, hl, hc]

/-- The tail of a character: octets that go on with the number of the character. -/
theorem continuation_one {low high : UInt8} {bits n : Nat} (rest : List UInt8)
    (hl : low.toNat ≤ n % 64 + 0x80) (hh : n % 64 + 0x80 ≤ high.toNat) (hn : bits = n / 64) :
    continuation 1 low high bits (UInt8.ofNat (n % 64 + 0x80) :: rest) = (some n, rest) := by
  have hvalue : 64 * bits + (n % 64 + 0x80 - 0x80) = n := by omega
  rw [continuation_ofNat hl hh, continuation, hvalue]

theorem continuation_two {low high : UInt8} {bits n : Nat} (rest : List UInt8)
    (hl : low.toNat ≤ n / 64 % 64 + 0x80) (hh : n / 64 % 64 + 0x80 ≤ high.toNat)
    (hn : bits = n / 4096) :
    continuation 2 low high bits
      (UInt8.ofNat (n / 64 % 64 + 0x80) :: UInt8.ofNat (n % 64 + 0x80) :: rest) =
        (some n, rest) := by
  rw [continuation_ofNat hl hh]
  refine continuation_one rest ?_ ?_ ?_
  · exact Nat.le_add_left _ _
  · show _ ≤ 191; omega
  · omega

theorem continuation_three {low high : UInt8} {bits n : Nat} (rest : List UInt8)
    (hl : low.toNat ≤ n / 4096 % 64 + 0x80) (hh : n / 4096 % 64 + 0x80 ≤ high.toNat)
    (hn : bits = n / 262144) :
    continuation 3 low high bits (UInt8.ofNat (n / 4096 % 64 + 0x80) ::
      UInt8.ofNat (n / 64 % 64 + 0x80) :: UInt8.ofNat (n % 64 + 0x80) :: rest) =
        (some n, rest) := by
  rw [continuation_ofNat hl hh]
  refine continuation_two rest ?_ ?_ ?_
  · exact Nat.le_add_left _ _
  · show _ ≤ 191; omega
  · omega

theorem next_three {n : Nat} (h : 0x800 ≤ n) (h' : n < 0xD800 ∨ 0xDFFF < n ∧ n ≤ 0xFFFF)
    (rest : List UInt8) :
    next (UInt8.ofNat (n / 4096 % 16 + 0xE0)) (UInt8.ofNat (n / 64 % 64 + 0x80) ::
      UInt8.ofNat (n % 64 + 0x80) :: rest) = (Char.ofNat n, rest) := by
  have hlead := @lead?_ofNat (n / 4096 % 16 + 0xE0) (by omega)
  rw [if_neg (by omega), if_neg (by omega), if_neg (by omega)] at hlead
  by_cases h0 : n / 4096 = 0
  · rw [if_pos (by omega)] at hlead
    refine next_of_lead hlead (continuation_two rest ?_ ?_ h0.symm)
    · show 160 ≤ _; omega
    · show _ ≤ 191; omega
  · rw [if_neg (by omega)] at hlead
    by_cases hd : n / 4096 = 0xD
    · rw [if_pos (by omega)] at hlead
      refine next_of_lead hlead (continuation_two rest ?_ ?_ hd.symm)
      · show 128 ≤ _; omega
      · show _ ≤ 159; omega
    · rw [if_neg (by omega), if_pos (by omega)] at hlead
      refine next_of_lead hlead (continuation_two rest ?_ ?_ ?_)
      · show 128 ≤ _; omega
      · show _ ≤ 191; omega
      · show n / 4096 % 16 + 0xE0 - 0xE0 = _; omega

theorem next_four {n : Nat} (h : 0x10000 ≤ n) (h' : n < 0x110000) (rest : List UInt8) :
    next (UInt8.ofNat (n / 262144 % 8 + 0xF0)) (UInt8.ofNat (n / 4096 % 64 + 0x80) ::
      UInt8.ofNat (n / 64 % 64 + 0x80) :: UInt8.ofNat (n % 64 + 0x80) :: rest) =
        (Char.ofNat n, rest) := by
  have hlead := @lead?_ofNat (n / 262144 % 8 + 0xF0) (by omega)
  rw [if_neg (by omega), if_neg (by omega), if_neg (by omega), if_neg (by omega),
    if_neg (by omega), if_neg (by omega)] at hlead
  by_cases h0 : n / 262144 = 0
  · rw [if_pos (by omega)] at hlead
    refine next_of_lead hlead (continuation_three rest ?_ ?_ h0.symm)
    · show 144 ≤ _; omega
    · show _ ≤ 191; omega
  · rw [if_neg (by omega)] at hlead
    by_cases h4 : n / 262144 = 4
    · rw [if_neg (by omega), if_pos (by omega)] at hlead
      refine next_of_lead hlead (continuation_three rest ?_ ?_ h4.symm)
      · show 128 ≤ _; omega
      · show _ ≤ 143; omega
    · rw [if_pos (by omega)] at hlead
      refine next_of_lead hlead (continuation_three rest ?_ ?_ ?_)
      · show 128 ≤ _; omega
      · show _ ≤ 191; omega
      · show n / 262144 % 8 + 0xF0 - 0xF0 = _; omega

theorem next_two {n : Nat} (h : 0x80 ≤ n) (h' : n ≤ 0x7FF) (rest : List UInt8) :
    next (UInt8.ofNat (n / 64 % 32 + 0xC0)) (UInt8.ofNat (n % 64 + 0x80) :: rest) =
      (Char.ofNat n, rest) := by
  have hlead := @lead?_ofNat (n / 64 % 32 + 0xC0) (by omega)
  rw [if_neg (by omega), if_neg (by omega), if_pos (by omega)] at hlead
  refine next_of_lead hlead (continuation_one rest ?_ ?_ ?_)
  · show 128 ≤ _; omega
  · show _ ≤ 191; omega
  · show n / 64 % 32 + 0xC0 - 0xC0 = _; omega

/-- **The decoder reads back what a character is written as**, whatever comes behind it. -/
theorem decode_encodeChar_append (c : Char) (rest : List UInt8) :
    decode (String.utf8EncodeChar c ++ rest) = c :: decode rest := by
  obtain ⟨n, hn⟩ : ∃ n, c.val.toNat = n := ⟨_, rfl⟩
  have hvalid : n < 0xD800 ∨ 0xDFFF < n ∧ n < 0x110000 := hn ▸ c.valid
  have hread : ∀ {b : UInt8} {bytes : List UInt8}, next b bytes = (Char.ofNat n, rest) →
      decode (b :: bytes) = c :: decode rest := by
    intro b bytes h
    have hc : Char.ofNat n = c := hn ▸ Char.ofNat_toNat c
    rw [decode_cons, h, hc]
  simp only [String.utf8EncodeChar, hn]
  by_cases h1 : n ≤ 0x7F
  · rw [if_pos h1]
    refine hread (next_of_lead (l := ⟨0, 0, 0, n⟩) ?_ rfl)
    rw [lead?_ofNat (by omega), if_pos (by omega)]
  · rw [if_neg h1]
    by_cases h2 : n ≤ 0x7FF
    · rw [if_pos h2]
      exact hread (next_two (by omega) h2 rest)
    · rw [if_neg h2]
      by_cases h3 : n ≤ 0xFFFF
      · rw [if_pos h3]
        exact hread (next_three (by omega) (by omega) rest)
      · rw [if_neg h3]
        exact hread (next_four (by omega) (by omega) rest)

/-! ### Texts -/

/-- The octets of characters. -/
def encode (cs : List Char) : List UInt8 := cs.flatMap String.utf8EncodeChar

theorem encode_append (cs ds : List Char) : encode (cs ++ ds) = encode cs ++ encode ds :=
  List.flatMap_append

/-- **Decoding undoes encoding.** -/
theorem decode_encode (cs : List Char) : decode (encode cs) = cs := by
  induction cs with
  | nil => exact decode_nil
  | cons c cs ih => rw [encode, List.flatMap_cons, decode_encodeChar_append, ← encode, ih]

/-- The octets of an array, as the decoder reads them. -/
theorem toList_eq_data (bytes : ByteArray) : bytes.toList = bytes.data.toList := by
  have hloop : ∀ (k i : Nat) (seen : List UInt8), bytes.size - i = k →
      ByteArray.toList.loop bytes i seen = seen.reverse ++ bytes.data.toList.drop i := by
    intro k
    induction k with
    | zero =>
      intro i seen hk
      rw [ByteArray.toList.loop, if_neg (by omega), List.drop_eq_nil_of_le, List.append_nil]
      show bytes.data.size ≤ i
      exact Nat.le_of_sub_eq_zero hk
    | succ k ih =>
      intro i seen hk
      have hi : i < bytes.data.size := Nat.lt_of_sub_pos (hk ▸ Nat.succ_pos k)
      have hsize : i < bytes.size := hi
      have hget : bytes.get! i = bytes.data.toList[i] :=
        (getElem!_pos bytes.data i hi).trans (Array.getElem_toList hi).symm
      have hdrop : bytes.data.toList.drop i =
          bytes.data.toList[i] :: bytes.data.toList.drop (i + 1) :=
        List.drop_eq_getElem_cons hi
      rw [ByteArray.toList.loop, if_pos hsize, ih (i + 1) _ (by omega), hget, hdrop,
        List.reverse_cons, List.append_assoc]
      rfl
  exact hloop bytes.size 0 [] rfl

theorem toList_data_toUTF8 (s : String) : s.toUTF8.data.toList = encode s.toList := by
  show s.toByteArray.data.toList = _
  rw [← String.utf8Encode_toList, List.utf8Encode, List.toList_data_toByteArray]
  rfl

/-- Octets that were made of a text stand for it. -/
theorem text_toUTF8 (s : String) : text s.toUTF8 = s := by
  rw [text, toList_eq_data, toList_data_toUTF8, decode_encode, String.ofList_toList]

/-- **A slice between characters** is the text between them. -/
theorem slice_toUTF8 {s : String} {front mid back : List Char}
    (h : s.toList = front ++ (mid ++ back)) :
    slice s.toUTF8 (encode front).length ((encode front).length + (encode mid).length) =
      String.ofList mid := by
  rw [slice, text, toList_eq_data, ByteArray.data_extract, Array.toList_extract,
    toList_data_toUTF8, h, encode_append, encode_append, List.extract_eq_take_drop,
    List.drop_left, Nat.add_sub_cancel_left, List.take_left, decode_encode]

/-- **A file that a text was written to has this text**, unless the text starts with a mark. -/
theorem fileText_toUTF8 {s : String} (h : s.toList.head? ≠ some byteOrderMark) :
    fileText s.toUTF8 = s := by
  rw [fileText, toList_eq_data, toList_data_toUTF8, decode_encode]
  cases hs : s.toList with
  | nil => exact (String.toList_eq_nil_iff.1 hs).symm
  | cons c rest =>
    have hc : c ≠ byteOrderMark := by
      rw [hs] at h
      exact fun heq ↦ h (congrArg some heq)
    show (if c = byteOrderMark then _ else _) = s
    rw [if_neg hc, ← hs, String.ofList_toList]

end CommentScope.Utf8
