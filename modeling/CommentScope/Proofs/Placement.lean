import CommentScope.Lexeme
import CommentScope.Proofs.ConcreteOrder
import CommentScope.Proofs.Utf8

/-!
# Concrete trees of a source

A concrete tree belongs to a source if its offsets stand between characters of the source, its
points are those of the offsets, and its nodes are in order (`Concrete.Placed`). Two such places
cut the source in three (`IsAt.cut`). From this follows what is needed of positions: rows are in
order, two places in order delimit a piece of source, and texts between places can be put together.
-/

namespace CommentScope

/-- The point of a cursor. -/
def Cursor.point (p : Cursor) : Point := ⟨p.row, p.column⟩

/-- Whether an offset and a point are those of one place between characters of a source. -/
def IsAt (source : String) (offset : Nat) (p : Point) : Prop :=
  ∃ front back, source.toList = front ++ back ∧ (Cursor.origin.skip front).offset = offset ∧
    (Cursor.origin.skip front).point = p

theorem isAt_iff {source : String} {offset : Nat} {p : Point} :
    IsAt source offset p ↔ ∃ k < source.toList.length + 1,
      (Cursor.origin.skip (source.toList.take k)).offset = offset ∧
        (Cursor.origin.skip (source.toList.take k)).point = p := by
  constructor
  · rintro ⟨front, back, h, hoffset, hpoint⟩
    refine ⟨front.length, ?_, ?_⟩
    · rw [h, List.length_append]
      omega
    · rw [h, List.take_left]
      exact ⟨hoffset, hpoint⟩
  · rintro ⟨k, -, hoffset, hpoint⟩
    exact ⟨_, _, (List.take_append_drop k _).symm, hoffset, hpoint⟩

instance (source : String) (offset : Nat) (p : Point) : Decidable (IsAt source offset p) :=
  decidable_of_iff _ isAt_iff.symm

/-! ### Cursors -/

namespace Utf8

theorem encode_cons (c : Char) (cs : List Char) :
    encode (c :: cs) = String.utf8EncodeChar c ++ encode cs :=
  List.flatMap_cons

theorem length_encode (cs : List Char) :
    (encode cs).length = (String.ofList cs).utf8ByteSize := by
  induction cs with
  | nil => rfl
  | cons c cs ih =>
    rw [encode_cons, List.length_append, ih, String.length_utf8EncodeChar, String.ofList_cons,
      String.utf8ByteSize_append, String.utf8ByteSize_singleton]

/-- A text has no more characters than octets. -/
theorem length_le_length_encode (cs : List Char) : cs.length ≤ (encode cs).length := by
  induction cs with
  | nil => exact Nat.le_refl _
  | cons c cs ih =>
    have hpos := c.utf8Size_pos
    rw [encode_cons, List.length_append, List.length_cons, String.length_utf8EncodeChar]
    omega

/-- Of two fronts of a text, the one with fewer octets is the front of the other. -/
theorem exists_append_of_le {front back front' back' : List Char}
    (h : front ++ back = front' ++ back')
    (hle : (encode front).length ≤ (encode front').length) :
    ∃ mid, front' = front ++ mid ∧ back = mid ++ back' := by
  rcases List.append_eq_append_iff.1 h with ⟨mid, hfront, hback⟩ | ⟨rest, rfl, rfl⟩
  · exact ⟨mid, hfront, hback⟩
  · have hrest := length_le_length_encode rest
    rw [encode_append, List.length_append] at hle
    have hnil : rest = [] := List.eq_nil_of_length_eq_zero (by omega)
    subst hnil
    exact ⟨[], by simp, by simp⟩

/-- Fronts of a text are known by the number of their octets. -/
theorem eq_of_length_encode {front back front' back' : List Char}
    (h : front ++ back = front' ++ back')
    (heq : (encode front).length = (encode front').length) : front = front' ∧ back = back' := by
  obtain ⟨mid, rfl, rfl⟩ := exists_append_of_le h (Nat.le_of_eq heq)
  have hmid := length_le_length_encode mid
  rw [encode_append, List.length_append] at heq
  have hnil : mid = [] := List.eq_nil_of_length_eq_zero (by omega)
  subst hnil
  exact ⟨by simp, by simp⟩

end Utf8

open Utf8

namespace Cursor

theorem offset_skip_origin (cs : List Char) : (origin.skip cs).offset = (encode cs).length := by
  rw [offset_skip, length_encode]
  exact Nat.zero_add _

/-- **Columns count octets** on a row. -/
theorem column_skip (p : Cursor) {cs : List Char} (h : cs.count '\n' = 0) :
    (p.skip cs).column = p.column + (encode cs).length := by
  induction cs generalizing p with
  | nil => rfl
  | cons c cs ih =>
    have hc : c ≠ '\n' := by
      rintro rfl
      simp at h
    have hcs : cs.count '\n' = 0 := by rwa [List.count_cons_of_ne hc] at h
    have hskip : p.skip (c :: cs) = (p.next c).skip cs := rfl
    rw [hskip, ih _ hcs, next, if_neg hc, encode_cons, List.length_append,
      String.length_utf8EncodeChar, Nat.add_assoc]

end Cursor

/-! ### Two places -/

section

variable {source : String} {start stop last : Nat} {p q r : Point}

/-- **Two places cut a source in three.** -/
theorem IsAt.cut (hp : IsAt source start p) (hq : IsAt source stop q) (h : start ≤ stop) :
    ∃ front mid back, source.toList = front ++ (mid ++ back) ∧ (encode front).length = start ∧
      start + (encode mid).length = stop ∧ (Cursor.origin.skip front).point = p ∧
      ((Cursor.origin.skip front).skip mid).point = q := by
  obtain ⟨front, back, hsource, rfl, rfl⟩ := hp
  obtain ⟨front', back', hsource', rfl, rfl⟩ := hq
  rw [Cursor.offset_skip_origin, Cursor.offset_skip_origin] at h ⊢
  obtain ⟨mid, rfl, rfl⟩ := exists_append_of_le (hsource.symm.trans hsource') h
  refine ⟨front, mid, back', hsource, rfl, ?_, rfl, ?_⟩
  · rw [encode_append, List.length_append]
  · rw [← Cursor.skip_append]

/-- **Slices between places can be put together.** -/
theorem IsAt.slice_append (hp : IsAt source start p) (hq : IsAt source stop q)
    (hr : IsAt source last r) (h : start ≤ stop) (h' : stop ≤ last) :
    Utf8.slice source.toUTF8 start last =
      String.ofList ((Utf8.slice source.toUTF8 start stop).toList ++
        (Utf8.slice source.toUTF8 stop last).toList) := by
  obtain ⟨front, mid, back, hsource, rfl, rfl, -, -⟩ := hp.cut hq h
  obtain ⟨front', mid', back', hsource', hstop, rfl, -, -⟩ := hq.cut hr h'
  have hsplit : (front ++ mid) ++ back = front' ++ (mid' ++ back') := by
    rw [List.append_assoc, ← hsource, hsource']
  obtain ⟨rfl, rfl⟩ := eq_of_length_encode hsplit (by rw [encode_append, List.length_append, hstop])
  have hjoined : source.toList = front ++ ((mid ++ mid') ++ back') := by
    rw [hsource, List.append_assoc mid]
  have hwhole := slice_toUTF8 hjoined
  rw [encode_append mid, List.length_append, ← Nat.add_assoc] at hwhole
  rw [hwhole, slice_toUTF8 hsource, ← hstop, slice_toUTF8 hsource', String.toList_ofList,
    String.toList_ofList]

/-- Rows do not fall from one place to a later one. -/
theorem IsAt.row_le (hp : IsAt source start p) (hq : IsAt source stop q) (h : start ≤ stop) :
    p.row ≤ q.row := by
  obtain ⟨front, mid, back, -, -, -, rfl, rfl⟩ := hp.cut hq h
  show ((Cursor.origin.skip front).row : Int) ≤ (((Cursor.origin.skip front).skip mid).row : Int)
  rw [Cursor.row_skip _ mid]
  omega

/-- **Two places in order delimit a piece of source.** -/
theorem IsAt.delimits (hp : IsAt source start p) (hq : IsAt source stop q) (h : start ≤ stop) :
    p.Delimits q := by
  obtain ⟨front, mid, back, -, -, -, rfl, rfl⟩ := hp.cut hq h
  generalize Cursor.origin.skip front = a
  refine ⟨Int.natCast_nonneg a.row, ?_⟩
  have hrow := a.row_skip mid
  rcases Nat.eq_zero_or_pos (mid.count '\n') with hnone | hpos
  · have hcolumn := a.column_skip hnone
    exact .inr ⟨congrArg Int.ofNat (by omega), Int.ofNat_le.2 (by omega)⟩
  · exact .inl (Int.ofNat_lt.2 (by omega))

end

/-! ### Trees of a source -/

namespace Concrete

/-- The offset at which a node starts. -/
def Label.startOffset (l : Label) : Int := l.startByte

/-- The offset at which a node ends. -/
def Label.stopOffset (l : Label) : Int := l.endByte

/-- Whether a concrete tree is one of a source: its offsets and points are those of places in the
source, and its nodes are in order. -/
structure Placed (source : String) (c : Concrete) : Prop where
  start : ∀ n ∈ c.nodes, IsAt source n.label.startByte n.label.start
  stop : ∀ n ∈ c.nodes, IsAt source n.label.endByte n.label.stop
  ordered : c.OrderedBy Label.startOffset Label.stopOffset

mutual

/-- Nodes of a node of a tree are nodes of the tree. -/
theorem mem_nodes_trans {n d : Concrete} (hd : d ∈ n.nodes) :
    ∀ c : Concrete, n ∈ c.nodes → d ∈ c.nodes
  | ⟨l, cs⟩, hn => by
    rw [nodes] at hn ⊢
    rcases List.mem_cons.1 hn with rfl | hn
    · rwa [nodes] at hd
    · exact List.mem_cons_of_mem _ (mem_nodesAll_trans hd cs hn)

theorem mem_nodesAll_trans {n d : Concrete} (hd : d ∈ n.nodes) :
    ∀ cs : List Concrete, n ∈ nodesAll cs → d ∈ nodesAll cs
  | [], hn => absurd hn List.not_mem_nil
  | c :: cs, hn => by
    rw [nodesAll, List.mem_append] at hn ⊢
    rcases hn with hn | hn
    · exact .inl (mem_nodes_trans hd c hn)
    · exact .inr (mem_nodesAll_trans hd cs hn)

end

variable {source : String} {c : Concrete}

/-- **The rows of a tree of a source are in order.** -/
theorem Placed.rowsInOrder (h : c.Placed source) : c.RowsInOrder := by
  intro n hn
  have hchildren : ∀ d ∈ n.children, d ∈ c.nodes := fun d hd ↦
    mem_nodes_trans (mem_nodes_of_mem_children hd d.self_mem_nodes) c hn
  obtain ⟨hself, hinside, hchain⟩ := h.ordered n hn
  have hle : ∀ d ∈ n.children, Label.startOffset d.label ≤ Label.stopOffset d.label :=
    fun d hd ↦ (h.ordered d (hchildren d hd)).1
  refine ⟨(h.start n hn).row_le (h.stop n hn) (Int.ofNat_le.1 hself), ?_, ?_⟩
  · intro d hd
    have hd' := hchildren d hd
    obtain ⟨hlo, hhi⟩ := hinside d hd
    exact ⟨(h.start n hn).row_le (h.start d hd') (Int.ofNat_le.1 hlo),
      (h.stop d hd').row_le (h.stop n hn) (Int.ofNat_le.1 hhi)⟩
  · refine ((pairwise_of_isChain hle hchain).imp_of_mem fun {a b} ha hb hab ↦ ?_).isChain
    exact (h.stop a (hchildren a ha)).row_le (h.start b (hchildren b hb)) (Int.ofNat_le.1 hab)

/-- The ends of a node of a tree of a source delimit a piece of source. -/
theorem Placed.delimits (h : c.Placed source) {n : Concrete} (hn : n ∈ c.nodes) :
    n.label.start.Delimits n.label.stop :=
  (h.start n hn).delimits (h.stop n hn) (Int.ofNat_le.1 (h.ordered n hn).1)

/-- The small file is the source of its tree. -/
theorem sample_placed : sample.Placed sampleText where
  start := by decide +kernel
  stop := by decide +kernel
  ordered := by decide +kernel

end Concrete

end CommentScope
