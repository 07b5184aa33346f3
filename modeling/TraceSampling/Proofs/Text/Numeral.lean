import Mathlib.Tactic.IntervalCases
import TraceSampling.Text.Numeral

/-!
# Numerals read back

What the writers put down is read back to the number they were given. A numeral holds digits only,
so a separator that stands in a text stands outside of its numerals.
-/

namespace TraceSampling.Numeral

/-- The bases for which there are digits. -/
structure IsBase (b : Nat) : Prop where
  one_lt : 1 < b
  le_sixteen : b ≤ 16

theorem isBase_ten : IsBase 10 := ⟨by omega, by omega⟩

theorem isBase_sixteen : IsBase 16 := ⟨by omega, by omega⟩

variable {b : Nat}

/-! ## Digits -/

theorem digitValue?_digitChar (hb : IsBase b) {d : Nat} (hd : d < b) :
    digitValue? b d.digitChar = some d := by
  have hlt : d < 16 := Nat.lt_of_lt_of_le hd hb.le_sixteen
  interval_cases d <;> simp [digitValue?, Nat.digitChar, hd]

theorem readOn?_append (n : Nat) (cs ds : List Char) :
    readOn? b n (cs ++ ds) = (readOn? b n cs).bind fun m => readOn? b m ds := by
  induction cs generalizing n with
  | nil => rfl
  | cons c cs ih =>
    simp only [List.cons_append, readOn?]
    cases digitValue? b c with
    | none => rfl
    | some d => exact ih (b * n + d)

theorem readOn?_writeNat (hb : IsBase b) (n : Nat) : readOn? b 0 (writeNat b n) = some n := by
  -- The last digit comes off the end, which leaves the quotient.
  induction n using Nat.strongRecOn with
  | ind n ih =>
    have hpos : 0 < b := Nat.lt_trans Nat.zero_lt_one hb.one_lt
    rw [writeNat, Nat.toDigits_eq_if hb.one_lt]
    split
    · next hlt => simp [readOn?, digitValue?_digitChar hb hlt]
    · next hge =>
      have hdiv : n / b < n := Nat.div_lt_self (by omega) hb.one_lt
      have hmod : n % b < b := Nat.mod_lt n hpos
      rw [readOn?_append, ← writeNat, ih _ hdiv]
      simp [readOn?, digitValue?_digitChar hb hmod, Nat.div_add_mod]

theorem digit_of_readOn? {n m : Nat} {cs : List Char} (h : readOn? b n cs = some m) :
    ∀ c ∈ cs, digitValue? b c ≠ none := by
  induction cs generalizing n with
  | nil => simp
  | cons c cs ih =>
    obtain ⟨d, hd, hcs⟩ := Option.bind_eq_some_iff.mp h
    intro x hx
    rcases List.mem_cons.mp hx with rfl | hx
    · simp [hd]
    · exact ih hcs x hx

/-! ## Characters outside of numerals -/

theorem not_mem_writeNat (hb : IsBase b) {c : Char} (hc : digitValue? b c = none) (n : Nat) :
    c ∉ writeNat b n := by
  intro hmem
  exact digit_of_readOn? (readOn?_writeNat hb n) c hmem hc

/-- A character that stands in no numeral, whatever its base. -/
structure Foreign (c : Char) : Prop where
  no_digit : ∀ b, digitValue? b c = none
  ne_minus : c ≠ '-'

theorem foreign_colon : Foreign ':' := ⟨by simp [digitValue?], by decide⟩

theorem foreign_semicolon : Foreign ';' := ⟨by simp [digitValue?], by decide⟩

theorem Foreign.not_mem_writeNat {c : Char} (hc : Foreign c) (hb : IsBase b) (n : Nat) :
    c ∉ writeNat b n := Numeral.not_mem_writeNat hb (hc.no_digit b) n

theorem Foreign.not_mem_writeInt {c : Char} (hc : Foreign c) (i : Int) : c ∉ writeInt i := by
  cases i with
  | ofNat n => exact hc.not_mem_writeNat isBase_ten n
  | negSucc n =>
    rw [writeInt, List.mem_cons, not_or]
    exact ⟨hc.ne_minus, hc.not_mem_writeNat isBase_ten (n + 1)⟩

/-! ## Whole numerals -/

theorem writeNat_ne_nil (n : Nat) : writeNat b n ≠ [] := Nat.toDigits_ne_nil

theorem length_writeNat_word {n : Nat} (h : n < 0x10000000000000000) :
    (writeNat 16 n).length ≤ 16 :=
  (Nat.length_toDigits_le_iff (by omega) (by omega)).mpr h

theorem readDigits?_writeNat (hb : IsBase b) (n : Nat) :
    readDigits? b (writeNat b n) = some n := by
  unfold readDigits?
  split
  · next hnil => exact absurd hnil (writeNat_ne_nil n)
  · exact readOn?_writeNat hb n

theorem readNat?_writeNat (hb : IsBase b) (n : Nat) : readNat? b (writeNat b n) = some n := by
  unfold readNat?
  split
  · -- What was written has no sign.
    next cs hcs =>
    have hplus : '+' ∉ writeNat b n := not_mem_writeNat hb (by simp [digitValue?]) n
    simp [hcs] at hplus
  · exact readDigits?_writeNat hb n

theorem readInt?_writeInt (i : Int) : readInt? (writeInt i) = some i := by
  cases i with
  | ofNat n =>
    unfold readInt?
    split
    · next cs hcs =>
      have hminus : '-' ∉ writeNat 10 n :=
        not_mem_writeNat isBase_ten (by simp [digitValue?]) n
      rw [writeInt] at hcs
      simp [hcs] at hminus
    · simp [writeInt, readNat?_writeNat isBase_ten]
  | negSucc n =>
    rw [writeInt, readInt?, readDigits?_writeNat isBase_ten]
    rfl

end TraceSampling.Numeral
