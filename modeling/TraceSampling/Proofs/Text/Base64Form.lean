import TraceSampling.Proofs.Text.Base64

/-!
# One text for the same bytes

A text of base64 that is read without a fault is symbols in groups of four, the last group filled up
with padding and without spare bits. Packing its values and writing them again gives back the text,
so what can be read is just what is written.
-/

namespace TraceSampling.Base64

/-! ## Symbols -/

theorem symbol_of_value? {b : UInt8} {v : Nat} (h : value? b = some v) : v < 64 ∧ symbol v = b := by
  have hall : ∀ n < 256, ∀ v ∈ value? (UInt8.ofNat n), v < 64 ∧ symbol v = UInt8.ofNat n := by
    decide +kernel
  have hb := hall b.toNat b.toNat_lt v
  rw [UInt8.ofNat_toNat] at hb
  exact hb h

/-- Only symbols have values. -/
theorem values_symbols {values : List Nat} (h : ∀ v ∈ values, v < 64) (pads : Nat) :
    (values.map symbol ++ List.replicate pads pad).filterMap value? = values := by
  induction values with
  | nil =>
    rw [List.map_nil, List.nil_append, List.filterMap_replicate_of_none value?_pad]
  | cons v vs ih =>
    rw [List.map_cons, List.cons_append, List.filterMap_cons,
      value?_symbol (h v List.mem_cons_self), ih fun w hw => h w (List.mem_cons_of_mem _ hw)]

/-! ## The last group -/

section LastGroup

variable {start seen pads i : Nat} {last : Nat × UInt8} {text : List UInt8}

/-- The end of a text without a fault. -/
theorem of_lastGroupFault?_nil {padAt : Option Nat}
    (h : lastGroupFault? start seen last padAt pads [] = none) :
    2 ≤ seen ∧ (seen + pads) % 4 = 0 ∧ spareBits seen last.1 = 0 := by
  rw [lastGroupFault?] at h
  split at h
  · cases h
  · split at h
    · cases h
    · split at h
      · cases h
      · omega

/-- Behind padding there is nothing but padding. -/
theorem pads_of_lastGroupFault?
    (h : lastGroupFault? start seen last (some i) pads text = none) :
    ∃ more, text = List.replicate more pad ∧ 2 ≤ seen ∧ (seen + (pads + more)) % 4 = 0 ∧
      spareBits seen last.1 = 0 := by
  induction text generalizing pads with
  | nil => exact ⟨0, rfl, of_lastGroupFault?_nil h⟩
  | cons b text ih =>
    rw [lastGroupFault?.eq_def] at h
    dsimp only at h
    split at h
    · next hpad =>
      split at h
      · cases h
      · obtain ⟨more, rfl, hseen, hfull, hspare⟩ := ih h
        refine ⟨more + 1, by rw [hpad, List.replicate_succ], hseen, ?_, hspare⟩
        rwa [Nat.add_comm more, ← Nat.add_assoc pads]
    · cases h

/-- A last group is symbols, then padding. -/
theorem symbols_of_lastGroupFault? (h : lastGroupFault? start seen last none 0 text = none) :
    ∃ (values : List Nat) (more : Nat), text = values.map symbol ++ List.replicate more pad ∧
      (∀ v ∈ values, v < 64) ∧ 2 ≤ seen + values.length ∧ (seen + values.length + more) % 4 = 0 ∧
      spareBits (seen + values.length) (values.getLastD last.1) = 0 := by
  induction text generalizing seen last with
  | nil => exact ⟨[], 0, rfl, by simp, of_lastGroupFault?_nil h⟩
  | cons b text ih =>
    rw [lastGroupFault?.eq_def] at h
    dsimp only at h
    split at h
    · next hpad =>
      split at h
      · cases h
      · obtain ⟨more, rfl, hseen, hfull, hspare⟩ := pads_of_lastGroupFault? h
        refine ⟨[], more + 1, by rw [hpad, List.replicate_succ]; rfl, by simp, hseen, ?_, hspare⟩
        rwa [Nat.zero_add, Nat.add_comm 1] at hfull
    · split at h
      · cases h
      · next v hv =>
        obtain ⟨hlt, rfl⟩ := symbol_of_value? hv
        obtain ⟨values, more, rfl, hvalues, hseen, hfull, hspare⟩ := ih h
        have hcount : seen + (v :: values).length = seen + 1 + values.length := by
          rw [List.length_cons]
          omega
        refine ⟨v :: values, more, rfl, by simpa using ⟨hlt, hvalues⟩, ?_⟩
        rw [hcount, List.getLastD_cons]
        exact ⟨hseen, hfull, hspare⟩

end LastGroup

/-! ## Writing what was packed -/

section Packed

variable {a b c d : Nat}

theorem toNat_ofNat_lt {n : Nat} (h : n < 256) : (UInt8.ofNat n).toNat = n :=
  UInt8.toNat_ofNat_of_lt' h

theorem encode_pack_four (ha : a < 64) (hb : b < 64) (hc : c < 64) (hd : d < 64)
    (values : List Nat) :
    encode (pack (a :: b :: c :: d :: values)) =
      [a, b, c, d].map symbol ++ encode (pack values) := by
  rw [pack, encode, toNat_ofNat_lt (by omega), toNat_ofNat_lt (by omega),
    toNat_ofNat_lt (by omega)]
  have h₁ : (a * 4 + b / 16) / 4 = a := by omega
  have h₂ : (a * 4 + b / 16) % 4 * 16 + (b % 16 * 16 + c / 4) / 16 = b := by omega
  have h₃ : (b % 16 * 16 + c / 4) % 16 * 4 + (c % 4 * 64 + d) / 64 = c := by omega
  have h₄ : (c % 4 * 64 + d) % 64 = d := by omega
  rw [h₁, h₂, h₃, h₄]
  rfl

theorem encode_pack_three (ha : a < 64) (hb : b < 64) (hc : c < 64) (hspare : c % 4 = 0) :
    encode (pack [a, b, c]) = [a, b, c].map symbol ++ [pad] := by
  rw [pack, encode, toNat_ofNat_lt (by omega), toNat_ofNat_lt (by omega)]
  have h₁ : (a * 4 + b / 16) / 4 = a := by omega
  have h₂ : (a * 4 + b / 16) % 4 * 16 + (b % 16 * 16 + c / 4) / 16 = b := by omega
  have h₃ : (b % 16 * 16 + c / 4) % 16 * 4 = c := by omega
  rw [h₁, h₂, h₃]
  rfl

theorem encode_pack_two (ha : a < 64) (hb : b < 64) (hspare : b % 16 = 0) :
    encode (pack [a, b]) = [a, b].map symbol ++ [pad, pad] := by
  rw [pack, encode, toNat_ofNat_lt (by omega)]
  have h₁ : (a * 4 + b / 16) / 4 = a := by omega
  have h₂ : (a * 4 + b / 16) % 4 * 16 = b := by omega
  rw [h₁, h₂]
  rfl

end Packed

/-! ## Whole texts -/

theorem encode_pack_lastGroup {start : Nat} {text : List UInt8} (hlength : text.length ≤ 4)
    (h : lastGroupFault? start 0 (0, 0) none 0 text = none) :
    encode (pack (text.filterMap value?)) = text := by
  obtain ⟨values, more, rfl, hvalues, hseen, hfull, hspare⟩ := symbols_of_lastGroupFault? h
  rw [values_symbols hvalues]
  rw [List.length_append, List.length_map, List.length_replicate] at hlength
  rw [Nat.zero_add] at hseen hfull hspare
  match values with
  | [] | [_] => simp at hseen
  | [a, b] =>
    obtain rfl : more = 2 := by simp at hlength hfull; omega
    exact encode_pack_two (hvalues a (by simp)) (hvalues b (by simp)) hspare
  | [a, b, c] =>
    obtain rfl : more = 1 := by simp at hlength hfull; omega
    exact encode_pack_three (hvalues a (by simp)) (hvalues b (by simp)) (hvalues c (by simp)) hspare
  | [a, b, c, d] =>
    obtain rfl : more = 0 := by simp at hlength; omega
    exact encode_pack_four (hvalues a (by simp)) (hvalues b (by simp)) (hvalues c (by simp))
      (hvalues d (by simp)) []
  | _ :: _ :: _ :: _ :: _ :: _ => simp at hlength; omega

theorem encode_pack_of_faultFrom? {offset : Nat} {text : List UInt8}
    (h : faultFrom? offset text = none) : encode (pack (text.filterMap value?)) = text := by
  fun_induction faultFrom? offset text with
  | case1 | case2 | case3 | case4 => cases h
  | case5 offset a b c d e rest ha hb hc hd ih =>
    obtain ⟨va, ha⟩ := Option.ne_none_iff_exists'.mp ha
    obtain ⟨vb, hb⟩ := Option.ne_none_iff_exists'.mp hb
    obtain ⟨vc, hc⟩ := Option.ne_none_iff_exists'.mp hc
    obtain ⟨vd, hd⟩ := Option.ne_none_iff_exists'.mp hd
    obtain ⟨hlta, rfl⟩ := symbol_of_value? ha
    obtain ⟨hltb, rfl⟩ := symbol_of_value? hb
    obtain ⟨hltc, rfl⟩ := symbol_of_value? hc
    obtain ⟨hltd, rfl⟩ := symbol_of_value? hd
    rw [List.filterMap_cons_some ha, List.filterMap_cons_some hb, List.filterMap_cons_some hc,
      List.filterMap_cons_some hd, encode_pack_four hlta hltb hltc hltd, ih h]
    rfl
  | case6 => rfl
  | case7 offset last hshort =>
    refine encode_pack_lastGroup ?_ h
    match last with
    | [] | [_] | [_, _] | [_, _, _] | [_, _, _, _] => simp
    | a :: b :: c :: d :: e :: rest => exact (hshort a b c d e rest rfl).elim

/-- Reading accepts just what writing makes. -/
theorem decode_eq_ok_iff {text bytes : List UInt8} :
    decode text = .ok bytes ↔ text = encode bytes := by
  constructor
  · intro h
    unfold decode at h
    split at h
    · cases h
    · next hfault =>
      obtain rfl := Except.ok.inj h
      have hnone : strayEnd? text = none ∧ faultFrom? 0 text = none := by
        simpa [fault?] using hfault
      exact (encode_pack_of_faultFrom? hnone.2).symm
  · rintro rfl
    exact decode_encode bytes

end TraceSampling.Base64
