import TraceSampling.Table

/-!
# Entries that replace others

A list of pairs in which a new entry stands in front and the old ones of its key are taken out.
-/

namespace TraceSampling.Table

variable {κ α : Type} [BEq κ] [LawfulBEq κ] [DecidableEq κ]

theorem lookup_cons_eq (key other : κ) (value : α) (entries : List (κ × α)) :
    ((key, value) :: entries).lookup other =
      if other = key then some value else entries.lookup other := by
  by_cases h : other = key
  · subst h
    simp
  · have hbeq : (other == key) = false := by simpa using h
    simp [List.lookup_cons, hbeq, h]

theorem lookup_filter_ne {key other : κ} (h : other ≠ key) (entries : List (κ × α)) :
    (entries.filter (·.1 ≠ key)).lookup other = entries.lookup other := by
  induction entries with
  | nil => rfl
  | cons entry rest ih =>
    obtain ⟨k, v⟩ := entry
    by_cases hk : k = key
    · have hother : other ≠ k := by rwa [hk]
      rw [List.filter_cons_of_neg (by simpa using hk), ih, lookup_cons_eq, if_neg hother]
    · rw [List.filter_cons_of_pos (by simpa using hk), lookup_cons_eq, lookup_cons_eq, ih]

theorem lookup_filter_self (key : κ) (entries : List (κ × α)) :
    (entries.filter (·.1 ≠ key)).lookup key = none := by
  rw [List.lookup_eq_none_iff]
  intro entry hentry
  have hkey : entry.1 ≠ key := of_decide_eq_true (List.mem_filter.mp hentry).2
  exact bne_iff_ne.mpr hkey.symm

/-- What is found after the entries of a key were taken out. -/
theorem lookup_remove (key other : κ) (entries : List (κ × α)) :
    (entries.filter (·.1 ≠ key)).lookup other =
      if other = key then none else entries.lookup other := by
  split
  · next h => rw [h, lookup_filter_self]
  · next h => exact lookup_filter_ne h entries

/-- What is found after an entry took the place of those of its key. -/
theorem lookup_replace (key other : κ) (value : α) (entries : List (κ × α)) :
    ((key, value) :: entries.filter (·.1 ≠ key)).lookup other =
      if other = key then some value else entries.lookup other := by
  rw [lookup_cons_eq]
  split
  · rfl
  · next h => exact lookup_filter_ne h entries

theorem isSome_lookup_iff (key : κ) (entries : List (κ × α)) :
    (entries.lookup key).isSome = true ↔ key ∈ entries.map (·.1) := by
  induction entries with
  | nil => simp
  | cons entry rest ih =>
    obtain ⟨k, v⟩ := entry
    rw [lookup_cons_eq, List.map_cons, List.mem_cons]
    split
    · next h => exact iff_of_true rfl (.inl h)
    · next h => rw [or_iff_right h, ih]

end TraceSampling.Table
