/-!
# Values by key

Lists of pairs in which a key is looked up by its first occurrence. `put` replaces the value of a
key in its place or adds the key at the end, so that keys keep the order in which they first came
and each occurs once.
-/

namespace CommentScope.Keyed

variable {κ ν : Type} [DecidableEq κ]

/-- Replaces the value of a key in its place, or adds the key at the end. -/
def put (key : κ) (value : ν) : List (κ × ν) → List (κ × ν)
  | [] => [(key, value)]
  | (k, v) :: rest => if k = key then (key, value) :: rest else (k, v) :: put key value rest

/-- **What was put is found, and nothing else changes.** -/
theorem lookup_put (key k : κ) (value : ν) (l : List (κ × ν)) :
    (put key value l).lookup k = if k = key then some value else l.lookup k := by
  induction l with
  | nil =>
    by_cases h : k = key
    · simp [put, h]
    · have hne : (k == key) = false := by simpa using h
      simp [put, List.lookup_cons, h, hne]
  | cons e l ih =>
    obtain ⟨k', v'⟩ := e
    by_cases hk : k = k'
    · subst hk
      by_cases h : k = key <;> simp [put, h]
    · have hne : (k == k') = false := by simpa using hk
      by_cases h : k' = key
      · subst h
        simp [put, List.lookup_cons, hk, hne]
      · simp [put, List.lookup_cons, h, hne, ih]

/-- The keys stay in place, and a new key comes last. -/
theorem keys_put (key : κ) (value : ν) (l : List (κ × ν)) :
    (put key value l).map (·.1) =
      if key ∈ l.map (·.1) then l.map (·.1) else l.map (·.1) ++ [key] := by
  induction l with
  | nil => simp [put]
  | cons e l ih =>
    obtain ⟨k, v⟩ := e
    by_cases h : k = key
    · simp [put, h]
    · have hne : key ≠ k := fun hk ↦ h hk.symm
      simp only [put, h, if_false, List.map_cons, ih, List.mem_cons, hne, false_or]
      split <;> rfl

/-- Keys that were distinct stay so. -/
theorem nodup_keys_put (key : κ) (value : ν) {l : List (κ × ν)} (h : (l.map (·.1)).Nodup) :
    ((put key value l).map (·.1)).Nodup := by
  rw [keys_put]
  split
  · exact h
  · rename_i hk
    refine List.nodup_append.2 ⟨h, by simp, ?_⟩
    rintro a ha b hb rfl
    exact hk (List.mem_singleton.1 hb ▸ ha)

/-- The list of pairs in which later values of a key have replaced earlier ones. -/
def ofList (l : List (κ × ν)) : List (κ × ν) := l.foldl (fun known e ↦ put e.1 e.2 known) []

end CommentScope.Keyed
