/-!
# Cutting texts at a separator
-/

namespace TraceSampling.Split

/-- The parts before and behind the first separator. -/
def cut? (sep : Char) : List Char → Option (List Char × List Char)
  | [] => none
  | c :: cs =>
    if c = sep then some ([], cs)
    else (cut? sep cs).map fun (before, behind) => (c :: before, behind)

/-- All parts between separators; there is always one more of them than there are separators. -/
def pieces (sep : Char) : List Char → List (List Char)
  | [] => [[]]
  | c :: cs =>
    if c = sep then [] :: pieces sep cs
    else
      match pieces sep cs with
      | [] => [[c]]
      | p :: ps => (c :: p) :: ps

/-- The parts that are not empty. -/
def filled (sep : Char) (cs : List Char) : List (List Char) :=
  (pieces sep cs).filter (!·.isEmpty)

/-- The parts put together again. -/
def join (sep : Char) : List (List Char) → List Char
  | [] => []
  | [p] => p
  | p :: q :: ps => p ++ sep :: join sep (q :: ps)

theorem pieces_ne_nil (sep : Char) (cs : List Char) : pieces sep cs ≠ [] := by
  cases cs with
  | nil => simp [pieces]
  | cons c cs =>
    simp only [pieces]
    split
    · simp
    · split <;> simp

/-- Nothing is lost between the parts. -/
theorem join_pieces (sep : Char) (cs : List Char) : join sep (pieces sep cs) = cs := by
  induction cs with
  | nil => rfl
  | cons c cs ih =>
    have filled := pieces_ne_nil sep cs
    cases h : pieces sep cs with
    | nil => exact absurd h filled
    | cons p ps =>
      rw [h] at ih
      by_cases hc : c = sep
      · simp [pieces, hc, h, join, ih]
      · cases ps with
        | nil => simpa [pieces, hc, h, join] using ih
        | cons q qs => simpa [pieces, hc, h, join] using ih

end TraceSampling.Split
