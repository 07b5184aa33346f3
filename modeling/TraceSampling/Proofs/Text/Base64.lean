import TraceSampling.Text.Base64

/-!
# Base64 read back

Every group of four symbols that writing makes is read without a fault, and packing its values gives
back the three bytes it was made from. The last group may be short; the bits that its last symbol
has to spare are zero, as reading wants them. A written text is plain ASCII without blanks, so it
survives being stored as a string and trimmed.
-/

namespace TraceSampling

namespace Base64

/-! ## Symbols -/

theorem value?_symbol {v : Nat} (hv : v < 64) : value? (symbol v) = some v := by
  revert v
  decide

theorem symbol_ne_pad {v : Nat} (hv : v < 64) : symbol v ≠ pad := by
  intro h
  have hvalue := value?_symbol hv
  rw [h] at hvalue
  cases hvalue

theorem value?_pad : value? pad = none := rfl

/-- The values of the symbols that three bytes are written as. -/
theorem sextets_lt (a b c : UInt8) :
    a.toNat / 4 < 64 ∧ a.toNat % 4 * 16 + b.toNat / 16 < 64 ∧
      b.toNat % 16 * 4 + c.toNat / 64 < 64 ∧ c.toNat % 64 < 64 := by
  have ha := a.toNat_lt
  have hb := b.toNat_lt
  have hc := c.toNat_lt
  omega

theorem ofNat_eq {b : UInt8} {n : Nat} (h : n = b.toNat) : UInt8.ofNat n = b := by
  rw [h, UInt8.ofNat_toNat]

/-! ## Groups -/

section Group

variable {start seen pads : Nat} {last : Nat × UInt8} {padAt : Option Nat} {rest : List UInt8}

theorem lastGroupFault?_symbol {v : Nat} (hv : v < 64) :
    lastGroupFault? start seen last none pads (symbol v :: rest) =
      lastGroupFault? start (seen + 1) (v, symbol v) none pads rest := by
  rw [lastGroupFault?, if_neg (symbol_ne_pad hv), value?_symbol hv]

theorem lastGroupFault?_pad (h : 2 ≤ seen + pads) :
    lastGroupFault? start seen last padAt pads (pad :: rest) =
      lastGroupFault? start seen last (padAt <|> some (start + seen + pads)) (pads + 1) rest := by
  rw [lastGroupFault?.eq_def]
  dsimp only
  rw [if_pos rfl, if_neg (by omega)]

/-- A last group without spare bits that is padded to four. -/
theorem lastGroupFault?_nil (hseen : 2 ≤ seen) (hfull : (seen + pads) % 4 = 0)
    (hspare : spareBits seen last.1 = 0) :
    lastGroupFault? start seen last padAt pads [] = none := by
  rw [lastGroupFault?, if_neg (by omega), if_neg (by omega), if_neg (by omega)]

theorem lastGroupFault?_symbols {a b c d : Nat} (ha : a < 64) (hb : b < 64) (hc : c < 64)
    (hd : d < 64) :
    lastGroupFault? start 0 (0, 0) none 0 [symbol a, symbol b, symbol c, symbol d] = none := by
  rw [lastGroupFault?_symbol ha, lastGroupFault?_symbol hb, lastGroupFault?_symbol hc,
    lastGroupFault?_symbol hd, lastGroupFault?_nil (by decide) rfl rfl]

theorem lastGroupFault?_pad_one {a b c : Nat} (ha : a < 64) (hb : b < 64) (hc : c < 64)
    (hspare : c % 4 = 0) :
    lastGroupFault? start 0 (0, 0) none 0 [symbol a, symbol b, symbol c, pad] = none := by
  rw [lastGroupFault?_symbol ha, lastGroupFault?_symbol hb, lastGroupFault?_symbol hc,
    lastGroupFault?_pad (by decide)]
  exact lastGroupFault?_nil (by decide) rfl hspare

theorem lastGroupFault?_pad_two {a b : Nat} (ha : a < 64) (hb : b < 64) (hspare : b % 16 = 0) :
    lastGroupFault? start 0 (0, 0) none 0 [symbol a, symbol b, pad, pad] = none := by
  rw [lastGroupFault?_symbol ha, lastGroupFault?_symbol hb, lastGroupFault?_pad (by decide),
    lastGroupFault?_pad (by decide)]
  exact lastGroupFault?_nil (by decide) rfl hspare

end Group

/-! ## Whole texts -/

theorem faultFrom?_encode (offset : Nat) (bytes : List UInt8) :
    faultFrom? offset (encode bytes) = none := by
  induction bytes using encode.induct generalizing offset with
  | case1 a b c rest ih =>
    obtain ⟨h₁, h₂, h₃, h₄⟩ := sextets_lt a b c
    rw [encode]
    cases hrest : encode rest with
    | nil => exact lastGroupFault?_symbols h₁ h₂ h₃ h₄
    | cons next behind =>
      have hbehind := ih (offset + 4)
      rw [hrest] at hbehind
      simp only [faultFrom?, value?_symbol h₁, value?_symbol h₂, value?_symbol h₃,
        value?_symbol h₄, reduceCtorEq, if_false, hbehind]
  | case2 a b =>
    obtain ⟨h₁, h₂, h₃, -⟩ := sextets_lt a b 0
    exact lastGroupFault?_pad_one h₁ h₂ (by simpa using h₃) (by omega)
  | case3 a =>
    obtain ⟨h₁, h₂, -, -⟩ := sextets_lt a 0 0
    exact lastGroupFault?_pad_two h₁ (by simpa using h₂) (by omega)
  | case4 => rfl

theorem length_encode_mod (bytes : List UInt8) : (encode bytes).length % 4 = 0 := by
  induction bytes using encode.induct with
  | case1 a b c rest ih =>
    simp only [encode, List.length_cons]
    omega
  | case2 a b => simp [encode]
  | case3 a => simp [encode]
  | case4 => rfl

theorem fault?_encode (bytes : List UInt8) : fault? (encode bytes) = none := by
  have hstray : strayEnd? (encode bytes) = none := by
    rw [strayEnd?, if_neg (by rw [length_encode_mod]; decide)]
  rw [fault?, hstray, faultFrom?_encode]
  rfl

theorem pack_encode (bytes : List UInt8) : pack ((encode bytes).filterMap value?) = bytes := by
  induction bytes using encode.induct with
  | case1 a b c rest ih =>
    obtain ⟨h₁, h₂, h₃, h₄⟩ := sextets_lt a b c
    have hb := b.toNat_lt
    have hc := c.toNat_lt
    simp only [encode, List.filterMap_cons, value?_symbol h₁, value?_symbol h₂,
      value?_symbol h₃, value?_symbol h₄, pack, ih]
    rw [ofNat_eq (b := a) (by omega), ofNat_eq (b := b) (by omega), ofNat_eq (b := c) (by omega)]
  | case2 a b =>
    obtain ⟨h₁, h₂, h₃, -⟩ := sextets_lt a b 0
    have hb := b.toNat_lt
    simp only [encode, List.filterMap_cons, List.filterMap_nil, value?_symbol h₁, value?_symbol h₂,
      value?_symbol (show b.toNat % 16 * 4 < 64 by omega), value?_pad, pack]
    rw [ofNat_eq (b := a) (by omega), ofNat_eq (b := b) (by omega)]
  | case3 a =>
    obtain ⟨h₁, -, -, -⟩ := sextets_lt a 0 0
    simp only [encode, List.filterMap_cons, List.filterMap_nil, value?_symbol h₁,
      value?_symbol (show a.toNat % 4 * 16 < 64 by omega), value?_pad, pack]
    rw [ofNat_eq (b := a) (by omega)]
  | case4 => rfl

theorem decode_encode (bytes : List UInt8) : decode (encode bytes) = .ok bytes := by
  rw [decode, fault?_encode]
  dsimp only
  rw [pack_encode]

/-! ## Written texts as strings -/

theorem symbol_or_pad_of_mem_encode {s : UInt8} {bytes : List UInt8} (h : s ∈ encode bytes) :
    s = pad ∨ ∃ v < 64, s = symbol v := by
  induction bytes using encode.induct with
  | case1 a b c rest ih =>
    obtain ⟨h₁, h₂, h₃, h₄⟩ := sextets_lt a b c
    simp only [encode, List.mem_cons] at h
    obtain rfl | rfl | rfl | rfl | h := h
    · exact .inr ⟨_, h₁, rfl⟩
    · exact .inr ⟨_, h₂, rfl⟩
    · exact .inr ⟨_, h₃, rfl⟩
    · exact .inr ⟨_, h₄, rfl⟩
    · exact ih h
  | case2 a b =>
    obtain ⟨h₁, h₂, -, -⟩ := sextets_lt a b 0
    simp only [encode, List.mem_cons, List.not_mem_nil, or_false] at h
    obtain rfl | rfl | rfl | rfl := h
    · exact .inr ⟨_, h₁, rfl⟩
    · exact .inr ⟨_, h₂, rfl⟩
    · exact .inr ⟨_, by omega, rfl⟩
    · exact .inl rfl
  | case3 a =>
    obtain ⟨h₁, -, -, -⟩ := sextets_lt a 0 0
    simp only [encode, List.mem_cons, List.not_mem_nil, or_false] at h
    obtain rfl | rfl | rfl | rfl := h
    · exact .inr ⟨_, h₁, rfl⟩
    · exact .inr ⟨_, by omega, rfl⟩
    · exact .inl rfl
    · exact .inl rfl
  | case4 => cases h

/-- What is written is one byte of a string each, and no blank. -/
theorem char_of_mem_encode {s : UInt8} {bytes : List UInt8} (h : s ∈ encode bytes) :
    String.utf8EncodeChar (Char.ofNat s.toNat) = [s] ∧
      Blank.isBlank (Char.ofNat s.toNat) = false := by
  obtain rfl | ⟨v, hv, rfl⟩ := symbol_or_pad_of_mem_encode h
  · decide
  · clear h
    revert v
    decide +kernel

end Base64

namespace Blank

theorem trimStart_eq_self {cs : List Char} (h : ∀ c ∈ cs, isBlank c = false) :
    trimStart cs = cs := by
  cases cs with
  | nil => rfl
  | cons c cs => exact List.dropWhile_cons_of_neg (by simp [h c List.mem_cons_self])

theorem trim_eq_self {cs : List Char} (h : ∀ c ∈ cs, isBlank c = false) : trim cs = cs := by
  have hreverse : ∀ c ∈ cs.reverse, isBlank c = false := fun c hc => h c (List.mem_reverse.mp hc)
  rw [trim, trimStart_eq_self h, trimStart_eq_self hreverse, List.reverse_reverse]

end Blank

end TraceSampling
