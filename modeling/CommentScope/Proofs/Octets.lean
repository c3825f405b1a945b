import CommentScope.Proofs.Placement

/-!
# Points of octets

The point at an offset of a source is known from the octets before it: it has as many rows as there
are line feeds among them, and as many columns as there are octets behind the last line feed
(`Utf8.pointAt`). This makes sense for any octets, also for such as are no text, and for offsets
inside of a character. Between characters it is the point that is found by going through the text
(`IsAt.eq_pointAt`).

On one row, columns are octets, and a text has no more characters than octets. So what stands
between two offsets on one row fits between their columns (`Utf8.column_add_length_slice_le`).
-/

namespace CommentScope

namespace Utf8

/-! ### Octets of characters -/

/-- A text has no more characters than it is decoded from octets. -/
theorem length_decode_le (bytes : List UInt8) : (decode bytes).length ≤ bytes.length := by
  induction h : bytes.length using Nat.strongRecOn generalizing bytes with
  | ind n ih =>
    cases bytes with
    | nil => rw [decode_nil]; exact Nat.zero_le n
    | cons b rest =>
      rw [List.length_cons] at h
      have hnext := length_next_le b rest
      have hrest := ih (next b rest).2.length (by omega) (next b rest).2 rfl
      rw [decode_cons, List.length_cons]
      omega

/-- A line feed is an octet of no other character. -/
theorem lineFeed_not_mem_encodeChar {c : Char} (hc : c ≠ '\n') :
    10 ∉ String.utf8EncodeChar c := by
  intro hmem
  have hvalue : c.val.toNat ≠ 10 := fun h ↦ hc (Char.ext (UInt32.toNat_inj.1 h))
  have hne : ∀ n, n < 256 → n ≠ 10 → (10 : UInt8) ≠ UInt8.ofNat n := by
    intro n hn hten h
    rw [← UInt8.toNat_inj, toNat_ofNat_of_lt hn] at h
    exact hten h.symm
  -- The octets of a character that takes several of them are at least 128.
  have hlong : ∀ n, 128 ≤ n → n < 256 → (10 : UInt8) ≠ UInt8.ofNat n :=
    fun n hge hlt ↦ hne n hlt (by omega)
  rw [String.utf8EncodeChar] at hmem
  split at hmem
  · exact hne _ (by omega) hvalue (List.mem_singleton.1 hmem)
  · split at hmem
    · simp only [List.mem_cons, List.not_mem_nil, or_false] at hmem
      rcases hmem with h | h <;> exact hlong _ (by omega) (by omega) h
    · split at hmem
      · simp only [List.mem_cons, List.not_mem_nil, or_false] at hmem
        rcases hmem with h | h | h <;> exact hlong _ (by omega) (by omega) h
      · simp only [List.mem_cons, List.not_mem_nil, or_false] at hmem
        rcases hmem with h | h | h | h <;> exact hlong _ (by omega) (by omega) h

/-! ### Points -/

/-- The point behind some octets. -/
def pointBehind (bytes : List UInt8) : Point :=
  ⟨bytes.count 10, (bytes.reverse.takeWhile (· ≠ 10)).length⟩

/-- The point at an offset of a source. Offsets beyond the end mean the end. -/
def pointAt (source : ByteArray) (offset : Nat) : Point :=
  pointBehind (source.data.toList.take offset)

theorem row_pointBehind_append (front mid : List UInt8) :
    (pointBehind (front ++ mid)).row = (pointBehind front).row + mid.count 10 := by
  show ((_ : Nat) : Int) = (_ : Nat) + _
  rw [List.count_append, Int.natCast_add]

/-- **Columns count octets** that are no line feeds. -/
theorem pointBehind_append (front : List UInt8) {mid : List UInt8} (h : 10 ∉ mid) :
    pointBehind (front ++ mid) =
      ⟨(pointBehind front).row, (pointBehind front).column + mid.length⟩ := by
  have hmid : ∀ b ∈ mid.reverse, decide (b ≠ 10) = true := by
    intro b hb
    refine decide_eq_true ?_
    rintro rfl
    exact h (List.mem_reverse.1 hb)
  rw [pointBehind, List.count_append, List.count_eq_zero.2 h, List.reverse_append,
    List.takeWhile_append_of_pos hmid, List.length_append, List.length_reverse,
    Nat.add_comm mid.length]
  rfl

/-- A line feed starts a row. -/
theorem pointBehind_lineFeed (bytes : List UInt8) :
    pointBehind (bytes ++ [10]) = ⟨(pointBehind bytes).row + 1, 0⟩ := by
  rw [pointBehind, List.count_append, List.reverse_append]
  rfl

/-- The octets before an offset are those before an earlier one and those between the two. -/
theorem take_of_le (bytes : List UInt8) {start stop : Nat} (h : start ≤ stop) :
    bytes.take stop = bytes.take start ++ (bytes.drop start).take (stop - start) := by
  rw [← List.take_add, Nat.add_sub_cancel' h]

/-- **A later offset has no earlier point.** -/
theorem delimits_pointAt (source : ByteArray) {start stop : Nat} (h : start ≤ stop) :
    (pointAt source start).Delimits (pointAt source stop) := by
  rw [pointAt, pointAt, take_of_le _ h]
  generalize source.data.toList.take start = front
  generalize (source.data.toList.drop start).take (stop - start) = mid
  refine ⟨Int.natCast_nonneg _, ?_⟩
  rcases Nat.eq_zero_or_pos (mid.count 10) with hnone | hpos
  · rw [pointBehind_append front (List.count_eq_zero.1 hnone)]
    exact .inr ⟨rfl, Int.le_add_of_nonneg_right (Int.natCast_nonneg _)⟩
  · rw [row_pointBehind_append]
    exact .inl (Int.lt_add_of_pos_right _ (Int.natCast_pos.2 hpos))

/-- The text between two offsets, octet by octet. -/
theorem toList_slice (source : ByteArray) (start stop : Nat) :
    (slice source start stop).toList =
      decode ((source.data.toList.drop start).take (stop - start)) := by
  rw [slice, text, String.toList_ofList, toList_eq_data, ByteArray.data_extract,
    Array.toList_extract, List.extract_eq_take_drop]

/-- **What stands between two offsets on one row** fits between their columns. -/
theorem column_add_length_slice_le {source : ByteArray} {start stop : Nat}
    (hrow : (pointAt source start).row = (pointAt source stop).row)
    (hcolumn : (pointAt source start).column ≤ (pointAt source stop).column) :
    (pointAt source start).column + ((slice source start stop).toList.length : Int) ≤
      (pointAt source stop).column := by
  rw [toList_slice]
  rcases Nat.le_total start stop with hle | hle
  · have hsplit := take_of_le source.data.toList hle
    have hdecode := length_decode_le ((source.data.toList.drop start).take (stop - start))
    generalize (source.data.toList.drop start).take (stop - start) = mid at hsplit hdecode ⊢
    rw [pointAt, pointAt, hsplit] at hrow ⊢
    rw [row_pointBehind_append] at hrow
    have hnone : 10 ∉ mid := List.count_eq_zero.1 (by omega)
    rw [pointBehind_append _ hnone]
    show (pointBehind _).column + _ ≤ (pointBehind _).column + (mid.length : Int)
    omega
  · rw [Nat.sub_eq_zero_of_le hle, List.take_zero, decode_nil]
    simpa using hcolumn

end Utf8

open Utf8

/-! ### Points of characters -/

namespace Cursor

/-- Going through text, a cursor has the point behind the octets of the text. -/
theorem point_skip (p : Cursor) {bytes : List UInt8} (hp : p.point = pointBehind bytes)
    (cs : List Char) : (p.skip cs).point = pointBehind (bytes ++ encode cs) := by
  induction cs generalizing p bytes with
  | nil =>
    rw [show encode [] = [] from rfl, List.append_nil]
    exact hp
  | cons c cs ih =>
    rw [encode_cons, ← List.append_assoc]
    refine ih (p.next c) ?_
    rw [next]
    split
    · rename_i hc
      subst hc
      have hfeed : String.utf8EncodeChar '\n' = [10] := by decide
      rw [hfeed, pointBehind_lineFeed, ← hp]
      rfl
    · rename_i hc
      rw [pointBehind_append _ (lineFeed_not_mem_encodeChar hc), ← hp, String.length_utf8EncodeChar]
      rfl

end Cursor

/-- **A place between characters** has the point of its offset. -/
theorem IsAt.eq_pointAt {source : String} {offset : Nat} {p : Point} (h : IsAt source offset p) :
    p = pointAt source.toUTF8 offset := by
  obtain ⟨front, back, hsource, rfl, rfl⟩ := h
  rw [pointAt, toList_data_toUTF8, hsource, encode_append, Cursor.offset_skip_origin,
    List.take_left]
  have hstart : Cursor.origin.point = pointBehind [] := rfl
  exact Cursor.origin.point_skip hstart front

end CommentScope
