import Mathlib.Algebra.GroupWithZero.Nat
import Mathlib.Data.String.Basic
import TraceSampling.Text.Split

/-!
# Cutting texts that were put together

A part that does not hold the separator is found again by the cutters, and parts that were joined
come apart as they were.
-/

namespace TraceSampling.Split

variable {sep : Char}

theorem cut?_of_not_mem {cs : List Char} (h : sep ∉ cs) : cut? sep cs = none := by
  induction cs with
  | nil => rfl
  | cons c cs ih =>
    obtain ⟨hc, hcs⟩ := List.ne_and_not_mem_of_not_mem_cons h
    simp [cut?, Ne.symm hc, ih hcs]

theorem cut?_append {p : List Char} (h : sep ∉ p) (cs : List Char) :
    cut? sep (p ++ sep :: cs) = some (p, cs) := by
  induction p with
  | nil => simp [cut?]
  | cons c p ih =>
    obtain ⟨hc, hp⟩ := List.ne_and_not_mem_of_not_mem_cons h
    simp [cut?, Ne.symm hc, ih hp]

theorem pieces_cons {c : Char} {cs p : List Char} {ps : List (List Char)} (hc : c ≠ sep)
    (h : pieces sep cs = p :: ps) : pieces sep (c :: cs) = (c :: p) :: ps := by
  simp [pieces, hc, h]

theorem pieces_of_not_mem {cs : List Char} (h : sep ∉ cs) : pieces sep cs = [cs] := by
  induction cs with
  | nil => rfl
  | cons c cs ih =>
    obtain ⟨hc, hcs⟩ := List.ne_and_not_mem_of_not_mem_cons h
    exact pieces_cons (Ne.symm hc) (ih hcs)

theorem pieces_append {p : List Char} (h : sep ∉ p) (cs : List Char) :
    pieces sep (p ++ sep :: cs) = p :: pieces sep cs := by
  induction p with
  | nil => simp [pieces]
  | cons c p ih =>
    obtain ⟨hc, hp⟩ := List.ne_and_not_mem_of_not_mem_cons h
    exact pieces_cons (Ne.symm hc) (ih hp)

theorem not_mem_of_mem_pieces {cs : List Char} : ∀ p ∈ pieces sep cs, sep ∉ p := by
  induction cs with
  | nil => simp [pieces]
  | cons c cs ih =>
    by_cases hc : c = sep
    · simpa [pieces, hc] using ih
    · cases h : pieces sep cs with
      | nil => exact absurd h (pieces_ne_nil sep cs)
      | cons p ps =>
        rw [h] at ih
        rw [pieces_cons hc h]
        intro q hq
        rcases List.mem_cons.mp hq with rfl | hq
        · simpa [Ne.symm hc] using ih p (by simp)
        · exact ih q (by simp [hq])

/-- What a list of parts must satisfy to be found again. -/
def Separable (sep : Char) (ps : List (List Char)) : Prop := ∀ p ∈ ps, p ≠ [] ∧ sep ∉ p

theorem separable_filled (cs : List Char) : Separable sep (filled sep cs) := by
  intro p h
  obtain ⟨hp, hne⟩ := List.mem_filter.mp h
  exact ⟨by simpa using hne, not_mem_of_mem_pieces p hp⟩

theorem Separable.append {ps qs : List (List Char)} (hp : Separable sep ps)
    (hq : Separable sep qs) : Separable sep (ps ++ qs) := by
  intro p hmem
  rcases List.mem_append.mp hmem with h | h
  · exact hp p h
  · exact hq p h

theorem pieces_join {p : List Char} {ps : List (List Char)} (h : Separable sep (p :: ps)) :
    pieces sep (join sep (p :: ps)) = p :: ps := by
  induction ps generalizing p with
  | nil => exact pieces_of_not_mem (h p (by simp)).2
  | cons q ps ih =>
    rw [join, pieces_append (h p (by simp)).2, ih fun r hr => h r (by simp [hr])]

theorem filled_join {ps : List (List Char)} (h : Separable sep ps) :
    filled sep (join sep ps) = ps := by
  cases ps with
  | nil => rfl
  | cons p ps =>
    rw [filled, pieces_join h]
    exact List.filter_eq_self.mpr fun q hq => by simpa using (h q hq).1

theorem join_ne_nil {ps : List (List Char)} (hps : ps ≠ []) (h : Separable sep ps) :
    join sep ps ≠ [] := by
  intro hnil
  have hfilled := filled_join h
  rw [hnil] at hfilled
  exact hps hfilled.symm

/-! ## The cutters of the library -/

theorem pieces_eq_splitOn (sep : Char) (cs : List Char) : pieces sep cs = cs.splitOn sep := by
  induction cs with
  | nil => rfl
  | cons c cs ih =>
    rw [List.splitOn_cons_eq_if_modifyHead, ← ih, pieces]
    by_cases hc : c = sep
    · simp [hc]
    · cases hps : pieces sep cs with
      | nil => exact absurd hps (pieces_ne_nil sep cs)
      | cons p ps => simp [hc]

theorem splitOn_eq_cut? (sep : Char) (cs : List Char) :
    cs.splitOn sep =
      match cut? sep cs with
      | none => [cs]
      | some (before, behind) => before :: behind.splitOn sep := by
  by_cases hmem : sep ∈ cs
  · obtain ⟨before, behind, rfl, hbefore⟩ := List.eq_append_cons_of_mem hmem
    rw [cut?_append hbefore, List.splitOn_append_cons_self_of_not_mem hbefore]
  · rw [cut?_of_not_mem hmem, List.splitOn_eq_singleton hmem]

theorem join_eq_intercalate (sep : Char) (ps : List (List Char)) :
    join sep ps = [sep].intercalate ps := by
  induction ps with
  | nil => rfl
  | cons p ps ih =>
    cases ps with
    | nil => simp [join]
    | cons q ps => simp [join, ih]

/-! ## Characters of texts that were put together -/

theorem mem_join {c : Char} {p : List Char} {ps : List (List Char)} (hp : p ∈ ps) (hc : c ∈ p) :
    c ∈ join sep ps := by
  induction ps with
  | nil => cases hp
  | cons q ps ih =>
    cases ps with
    | nil => rwa [List.mem_singleton.mp hp] at hc
    | cons r ps =>
      rw [join, List.mem_append, List.mem_cons]
      obtain rfl | hp := List.mem_cons.mp hp
      · exact .inl hc
      · exact .inr (.inr (ih hp))

theorem of_mem_join {c : Char} {ps : List (List Char)} (h : c ∈ join sep ps) :
    c = sep ∨ ∃ p ∈ ps, c ∈ p := by
  induction ps with
  | nil => cases h
  | cons q ps ih =>
    cases ps with
    | nil => exact .inr ⟨q, List.mem_singleton_self q, h⟩
    | cons r ps =>
      rw [join, List.mem_append, List.mem_cons] at h
      obtain hq | hsep | hrest := h
      · exact .inr ⟨q, List.mem_cons_self, hq⟩
      · exact .inl hsep
      · obtain hsep | ⟨p, hp, hc⟩ := ih hrest
        · exact .inl hsep
        · exact .inr ⟨p, List.mem_cons_of_mem _ hp, hc⟩

/-! ## Their length and size -/

/-- Every part but the last brings a separator along. -/
theorem length_join {ps : List (List Char)} (h : ps ≠ []) :
    (join sep ps).length + 1 = (ps.map (·.length + 1)).sum := by
  induction ps with
  | nil => exact absurd rfl h
  | cons p ps ih =>
    cases ps with
    | nil => rfl
    | cons q ps =>
      have hrest := ih (List.cons_ne_nil q ps)
      rw [join, List.map_cons, List.sum_cons, List.length_append, List.length_cons]
      omega

/-- A text of characters of one byte each has as many bytes as characters. -/
theorem utf8ByteSize_of_narrow {cs : List Char} (h : ∀ c ∈ cs, c.val ≤ 127) :
    (String.ofList cs).utf8ByteSize = cs.length := by
  rw [String.utf8ByteSize_ofList]
  induction cs with
  | nil => rfl
  | cons c cs ih =>
    rw [String.utf8Len_cons, ih fun d hd => h d (List.mem_cons_of_mem c hd),
      Char.utf8Size_eq_one_iff.mpr (h c List.mem_cons_self), List.length_cons]

end TraceSampling.Split
