import Mathlib.Data.Nat.Digits.Lemmas
import TraceSampling.Proofs.Text.Numeral

/-!
# What spells a number

The texts that stand for a number, said without a reader: digits of the base in either case, at least
one of them, with the leading ones allowed to be zero, behind a sign where there may be one. The
readers of numerals accept these texts for these numbers and nothing else.
-/

namespace TraceSampling.Numeral

/-- A digit of a base, letters in either case. -/
def IsDigit (b : Nat) (c : Char) (d : Nat) : Prop :=
  d < b ∧ (c = d.digitChar ∨ c = d.digitChar.toUpper)

/-- Digits alone, the one of most weight first. -/
def SpellsDigits (b : Nat) (cs : List Char) (n : Nat) : Prop :=
  cs ≠ [] ∧ ∃ ds, List.Forall₂ (IsDigit b) cs ds ∧ n = Nat.ofDigits b ds.reverse

/-- Digits, behind a plus sign or not. -/
def SpellsNat (b : Nat) (cs : List Char) (n : Nat) : Prop :=
  ∃ digits, (cs = digits ∨ cs = '+' :: digits) ∧ SpellsDigits b digits n

/-- Digits of base ten, behind a sign or not. -/
def SpellsInt (cs : List Char) (i : Int) : Prop :=
  (∃ n : Nat, SpellsNat 10 cs n ∧ i = n) ∨
    ∃ digits n, cs = '-' :: digits ∧ SpellsDigits 10 digits n ∧ i = -(n : Int)

variable {b : Nat}

/-! ## Digits -/

/-- A character of a range is known by its place there. -/
theorem eq_of_range {lo hi c : Char} (h : lo ≤ c ∧ c ≤ hi) {f : Nat → Char}
    (hf : ∀ n ≤ hi.toNat, lo.toNat ≤ n → (f (n - lo.toNat)).toNat = n) :
    c = f (c.toNat - lo.toNat) :=
  Char.toNat_inj.mp (hf c.toNat h.2 h.1).symm

theorem isDigit_of_digitValue? {c : Char} {d : Nat} (h : digitValue? b c = some d) :
    IsDigit b c d := by
  simp only [digitValue?, Option.ite_none_right_eq_some, Option.some.injEq] at h
  obtain ⟨hlt, rfl⟩ := h
  refine ⟨hlt, ?_⟩
  split_ifs at hlt ⊢ with hdigit hlower hupper
  · exact .inl (eq_of_range hdigit (by decide))
  · exact .inl (eq_of_range hlower (f := fun place => (place + 10).digitChar) (by decide))
  · exact .inr (eq_of_range hupper (f := fun place => (place + 10).digitChar.toUpper) (by decide))
  · exact absurd hlt (Nat.lt_irrefl b)

theorem digitValue?_of_isDigit (hb : IsBase b) {c : Char} {d : Nat} (h : IsDigit b c d) :
    digitValue? b c = some d := by
  obtain ⟨hlt, rfl | rfl⟩ := h
  · exact digitValue?_digitChar hb hlt
  · have hsixteen : d < 16 := Nat.lt_of_lt_of_le hlt hb.le_sixteen
    interval_cases d <;> simp [digitValue?, Nat.digitChar, hlt]

theorem digitValue?_eq_some_iff (hb : IsBase b) {c : Char} {d : Nat} :
    digitValue? b c = some d ↔ IsDigit b c d :=
  ⟨isDigit_of_digitValue?, digitValue?_of_isDigit hb⟩

/-! ## Digits in a row -/

theorem readOn?_eq_some_iff (hb : IsBase b) {cs : List Char} {n m : Nat} :
    readOn? b n cs = some m ↔
      ∃ ds, List.Forall₂ (IsDigit b) cs ds ∧ m = Nat.ofDigits b ds.reverse + b ^ ds.length * n := by
  induction cs generalizing n with
  | nil =>
    simp only [readOn?, Option.some.injEq, List.forall₂_nil_left_iff, exists_eq_left,
      List.reverse_nil, Nat.ofDigits_nil, List.length_nil, pow_zero, Nat.one_mul, Nat.zero_add]
    exact eq_comm
  | cons c cs ih =>
    -- What was read before a digit has its weight in all places from there on.
    have hweight (d : Nat) (ds : List Nat) :
        Nat.ofDigits b (d :: ds).reverse + b ^ (d :: ds).length * n =
          Nat.ofDigits b ds.reverse + b ^ ds.length * (b * n + d) := by
      rw [List.reverse_cons, Nat.ofDigits_append, Nat.ofDigits_singleton, List.length_reverse,
        List.length_cons]
      ring
    simp only [readOn?, Option.bind_eq_some_iff, digitValue?_eq_some_iff hb, ih,
      List.forall₂_cons_left_iff]
    constructor
    · rintro ⟨d, hd, ds, hds, rfl⟩
      exact ⟨d :: ds, ⟨d, ds, hd, hds, rfl⟩, (hweight d ds).symm⟩
    · rintro ⟨-, ⟨d, ds, hd, hds, rfl⟩, rfl⟩
      exact ⟨d, hd, ds, hds, hweight d ds⟩

theorem readDigits?_eq_some_iff (hb : IsBase b) {cs : List Char} {n : Nat} :
    readDigits? b cs = some n ↔ SpellsDigits b cs n := by
  cases cs with
  | nil => simp [readDigits?, SpellsDigits]
  | cons c cs =>
    simp only [readDigits?, readOn?_eq_some_iff hb, SpellsDigits, Nat.mul_zero, Nat.add_zero]
    simp

/-! ## Signs -/

theorem not_spellsDigits_cons (hb : IsBase b) {sign : Char} (h : ∀ b, digitValue? b sign = none)
    (cs : List Char) (n : Nat) : ¬ SpellsDigits b (sign :: cs) n := by
  rintro ⟨-, ds, hds, -⟩
  obtain ⟨d, -, hd, -⟩ := List.forall₂_cons_left_iff.mp hds
  rw [← digitValue?_eq_some_iff hb, h b] at hd
  cases hd

theorem readNat?_eq_some_iff (hb : IsBase b) {cs : List Char} {n : Nat} :
    readNat? b cs = some n ↔ SpellsNat b cs n := by
  unfold readNat?
  split
  · next cs =>
    rw [readDigits?_eq_some_iff hb]
    constructor
    · exact fun h => ⟨cs, .inr rfl, h⟩
    · rintro ⟨digits, rfl | hcs, h⟩
      · exact absurd h (not_spellsDigits_cons hb (by simp [digitValue?]) cs n)
      · rwa [(List.cons.inj hcs).2]
  · next hplus =>
    rw [readDigits?_eq_some_iff hb]
    constructor
    · exact fun h => ⟨cs, .inl rfl, h⟩
    · rintro ⟨digits, rfl | hcs, h⟩
      · exact h
      · exact absurd hcs (hplus digits)

theorem readInt?_eq_some_iff {cs : List Char} {i : Int} : readInt? cs = some i ↔ SpellsInt cs i := by
  unfold readInt?
  split
  · next cs =>
    simp only [Option.map_eq_some_iff, Option.bind_eq_bind, Option.pure_def,
      Option.bind_eq_some_iff, Option.some.injEq, readDigits?_eq_some_iff isBase_ten]
    constructor
    · rintro ⟨-, ⟨n, h, rfl⟩, rfl⟩
      exact .inr ⟨cs, n, rfl, h, rfl⟩
    · rintro (⟨n, ⟨digits, rfl | hcs, h⟩, -⟩ | ⟨digits, n, hcs, h, rfl⟩)
      · exact absurd h (not_spellsDigits_cons isBase_ten (by simp [digitValue?]) cs n)
      · exact absurd (List.cons.inj hcs).1 (by decide)
      · rw [(List.cons.inj hcs).2]
        exact ⟨n, ⟨n, h, rfl⟩, rfl⟩
  · next hminus =>
    simp only [Option.map_eq_some_iff, readNat?_eq_some_iff isBase_ten]
    constructor
    · rintro ⟨n, h, rfl⟩
      exact .inl ⟨n, h, rfl⟩
    · rintro (⟨n, h, rfl⟩ | ⟨digits, n, hcs, -⟩)
      · exact ⟨n, h, rfl⟩
      · exact absurd hcs (hminus digits)

/-! ## Characters -/

theorem SpellsDigits.not_mem {cs : List Char} {n : Nat} (h : SpellsDigits b cs n) (hb : IsBase b)
    {c : Char} (hc : digitValue? b c = none) : c ∉ cs := by
  have hread := (readDigits?_eq_some_iff hb).mpr h
  unfold readDigits? at hread
  split at hread
  · cases hread
  · exact fun hmem => digit_of_readOn? hread c hmem hc

theorem SpellsNat.not_mem {cs : List Char} {n : Nat} (h : SpellsNat b cs n) (hb : IsBase b)
    {c : Char} (hc : digitValue? b c = none) (hplus : c ≠ '+') : c ∉ cs := by
  obtain ⟨digits, rfl | rfl, hdigits⟩ := h
  · exact hdigits.not_mem hb hc
  · exact List.not_mem_cons_of_ne_of_not_mem hplus (hdigits.not_mem hb hc)

theorem SpellsInt.not_mem {cs : List Char} {i : Int} (h : SpellsInt cs i) {c : Char}
    (hc : Foreign c) (hplus : c ≠ '+') : c ∉ cs := by
  obtain ⟨n, hn, -⟩ | ⟨digits, n, rfl, hdigits, -⟩ := h
  · exact hn.not_mem isBase_ten (hc.no_digit 10) hplus
  · exact List.not_mem_cons_of_ne_of_not_mem hc.ne_minus
      (hdigits.not_mem isBase_ten (hc.no_digit 10))

/-! ## Size -/

theorem IsDigit.narrow (hb : IsBase b) {c : Char} {d : Nat} (h : IsDigit b c d) : c.val ≤ 127 := by
  have hsixteen : d < 16 := Nat.lt_of_lt_of_le h.1 hb.le_sixteen
  obtain ⟨-, rfl | rfl⟩ := h <;> interval_cases d <;> decide

theorem SpellsNat.narrow (hb : IsBase b) {cs : List Char} {n : Nat} (h : SpellsNat b cs n) :
    ∀ c ∈ cs, c.val ≤ 127 := by
  obtain ⟨digits, hcs, -, ds, hds, -⟩ := h
  have hdigits : ∀ c ∈ digits, c.val ≤ 127 := by
    clear hcs
    induction hds with
    | nil => simp
    | cons hd _ ih => exact List.forall_mem_cons.mpr ⟨hd.narrow hb, ih⟩
  obtain rfl | rfl := hcs
  · exact hdigits
  · exact List.forall_mem_cons.mpr ⟨by decide, hdigits⟩

theorem SpellsNat.lt_pow (hb : IsBase b) {cs : List Char} {n : Nat} (h : SpellsNat b cs n) :
    n < b ^ cs.length := by
  obtain ⟨digits, hcs, -, ds, hds, rfl⟩ := h
  have hlength : ds.length ≤ cs.length := by
    obtain rfl | rfl := hcs
    · exact Nat.le_of_eq hds.length_eq.symm
    · rw [List.length_cons, hds.length_eq]
      omega
  have hdigits : ∀ d ∈ ds, d < b := by
    clear hcs hlength
    induction hds with
    | nil => simp
    | cons hd _ ih => exact List.forall_mem_cons.mpr ⟨hd.1, ih⟩
  calc
    Nat.ofDigits b ds.reverse
      < b ^ ds.reverse.length :=
        Nat.ofDigits_lt_base_pow_length hb.one_lt fun d hd => hdigits d (List.mem_reverse.mp hd)
    _ ≤ b ^ cs.length := by
        rw [List.length_reverse]
        exact Nat.pow_le_pow_right (by have hone := hb.one_lt; omega) hlength

end TraceSampling.Numeral
