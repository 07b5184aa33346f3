import TraceSampling.Proofs.HopState.RoundTrip

/-!
# The carried state in the header

A state that leaves with anything to say replaces the entry in the header, if the list takes its wire
form for a value; if not, the next hop reads what the header held before. Nothing but its length
can stand against a wire form, as long as what was received was a value itself.
-/

namespace TraceSampling

/-! ## The list -/

namespace VendorList

theorem get?_cons_self (key value : String) (ms : List VendorMember) :
    get? ⟨⟨key, value⟩ :: ms⟩ key = some value := by
  simp [get?]

theorem insert_eq (l : VendorList) {key : String} (hkey : isValidKey key = true) (value : String) :
    l.insert key value =
      if isValidValue value then .ok ⟨⟨key, value⟩ :: (l.without key).members⟩
      else .error (.invalidValue value) := by
  unfold insert checkMember
  rw [if_neg (by simp [hkey])]
  cases isValidValue value <;> rfl

theorem isValidValue_iff (value : String) :
    isValidValue value = true ↔
      value.utf8ByteSize ≤ 256 ∧ ',' ∉ value.toList ∧ '=' ∉ value.toList := by
  simp only [isValidValue, Bool.and_eq_true, decide_eq_true_eq, List.all_eq_true]
  refine and_congr_right fun _ => ⟨fun h => ?_, fun h c hc => ?_⟩
  · exact ⟨fun hmem => absurd (h _ hmem) (by decide), fun hmem => absurd (h _ hmem) (by decide)⟩
  · have hcomma : c ≠ ',' := fun heq => h.1 (heq ▸ hc)
    have hequals : c ≠ '=' := fun heq => h.2 (heq ▸ hc)
    exact ⟨hcomma, hequals⟩

theorem isValidValue_getD {l : VendorList} (h : ∀ m ∈ l.members, isValidValue m.value = true)
    (key : String) : isValidValue ((l.get? key).getD "") = true := by
  unfold get?
  cases hfind : l.members.find? (·.key = key) with
  | none => rfl
  | some m => exact h m (List.mem_of_find?_eq_some hfind)

end VendorList

namespace HopState

/-! ## Writing into it -/

theorem encode_eq_empty_iff (s : HopState) : s.encode = "" ↔ s = initial := by
  constructor
  · intro h
    rw [← decode_encode s, h]
    rfl
  · rintro rfl
    rfl

theorem isValidKey_vendorKey : VendorList.isValidKey vendorKey = true := by decide

variable {s : HopState} (l : VendorList)

theorem applyTo_eq (h : s.egress ≠ initial) :
    s.applyTo l =
      if VendorList.isValidValue s.egress.encode then
        ⟨⟨vendorKey, s.egress.encode⟩ :: (l.without vendorKey).members⟩
      else l := by
  have hvalue : s.egress.encode ≠ "" := fun hempty => h ((encode_eq_empty_iff _).mp hempty)
  unfold applyTo
  dsimp only
  rw [if_neg hvalue, VendorList.insert_eq l isValidKey_vendorKey]
  cases VendorList.isValidValue s.egress.encode <;> rfl

/-- What the next hop reads from the header. -/
theorem ofVendorList_applyTo (h : s.egress ≠ initial) :
    ofVendorList (s.applyTo l) =
      if VendorList.isValidValue s.egress.encode then s.egress else ofVendorList l := by
  rw [applyTo_eq l h]
  split
  · rw [ofVendorList, VendorList.get?_cons_self, Option.getD_some, decode_encode]
  · rfl

@[simp] theorem egress_workflow (s : HopState) : s.egress.workflow = s.workflow := by
  unfold egress
  split <;> rfl

@[simp] theorem egress_extensions (s : HopState) : s.egress.extensions = s.extensions := by
  unfold egress
  split <;> rfl

/-! ## Characters of the wire form -/

/-- A character that stands in a wire form in extensions only. -/
structure Alien (c : Char) : Prop where
  foreign : Numeral.Foreign c
  no_args : Args.isChar c = false
  not_mem_marks : c ∉ [':', ';', '0', 'r', 's', 'w']

theorem alien_comma : Alien ',' := ⟨⟨by simp [Numeral.digitValue?], by decide⟩, by decide, by decide⟩

theorem alien_equals : Alien '=' := ⟨⟨by simp [Numeral.digitValue?], by decide⟩, by decide, by decide⟩

namespace Alien

variable {c : Char} (hc : Alien c)
include hc

theorem not_mem_args (args : Args) : c ∉ args.text.toList := by
  intro hmem
  have hfits := args.fits_text
  simp only [Args.fits, Bool.and_eq_true, List.all_eq_true] at hfits
  have hchar := hfits.2 c hmem
  rw [hc.no_args] at hchar
  cases hchar

theorem not_mem_workflowEntry (w : WorkflowMark) : ∀ e ∈ workflowEntry w, c ∉ e := by
  have hmarks := hc.not_mem_marks
  have hresult := hc.foreign.not_mem_writeNat Numeral.isBase_ten w.result.rank
  have hids := hc.foreign.not_mem_writeNat Numeral.isBase_sixteen
  unfold workflowEntry
  split
  · simp
  · simp_all

theorem not_mem_sampleEntry (l : Lineage) : ∀ e ∈ sampleEntry l, c ∉ e := by
  have hmarks := hc.not_mem_marks
  have hrank := hc.foreign.not_mem_writeInt l.sampled.rank
  have hargs := hc.not_mem_args
  unfold sampleEntry
  split
  · simp
  · cases l.args <;> simp_all

theorem not_mem_rootEntry (l : Lineage) : ∀ e ∈ rootEntry l, c ∉ e := by
  have hmarks := hc.not_mem_marks
  have hrank := hc.foreign.not_mem_writeInt l.root.rank
  unfold rootEntry
  split
  · simp
  · simp_all

theorem not_mem_encode {s : HopState} (h : ∀ e ∈ s.extensions, c ∉ e.text.toList) :
    c ∉ s.encode.toList := by
  have hmarks := hc.not_mem_marks
  have hentries : ∀ e ∈ s.entries, c ∉ e := by
    intro e he
    simp only [entries, List.mem_append, List.mem_map] at he
    obtain ((he | he) | he) | ⟨ext, hext, rfl⟩ := he
    · exact hc.not_mem_workflowEntry _ e he
    · exact hc.not_mem_sampleEntry _ e he
    · exact hc.not_mem_rootEntry _ e he
    · exact h ext hext
  unfold encode
  split
  · simp
  · split
    · simp_all
    · rw [String.toList_ofList]
      intro hmem
      obtain rfl | ⟨e, he, hce⟩ := Split.of_mem_join hmem
      · simp at hmarks
      · exact hentries e he hce

end Alien

/-- Extensions are parts of what was received. -/
theorem extension_subset {value : String} {e : Extension} (h : e ∈ (decode value).extensions) :
    e.text.toList ⊆ value.toList := by
  have htext : e.text ∈ (Entry.scan value).filterMap Entry.raw? := by
    rw [← extensions_decode]
    exact List.mem_map_of_mem h
  obtain ⟨entry, hentry, hraw⟩ := List.mem_filterMap.mp htext
  obtain ⟨part, hpart, rfl⟩ := List.mem_map.mp hentry
  have hread : Entry.read part = .unknown e.text := by
    cases hread : Entry.read part <;> simp_all [Entry.raw?]
  rw [Entry.eq_ofList_of_read hread, String.toList_ofList]
  intro c hc
  have hpieces : part ∈ Split.pieces ';' value.toList := (List.mem_filter.mp hpart).1
  rw [← Split.join_pieces ';' value.toList]
  exact Split.mem_join hpieces hc

/-- Where the extensions come from a value, the wire form is one if it is short enough. -/
theorem isValidValue_encode_iff {s : HopState} {received : String}
    (hvalid : VendorList.isValidValue received = true)
    (hextensions : s.extensions = (decode received).extensions) :
    VendorList.isValidValue s.encode = true ↔ s.encode.utf8ByteSize ≤ 256 := by
  obtain ⟨-, hcomma, hequals⟩ := (VendorList.isValidValue_iff received).mp hvalid
  have hparts : ∀ e ∈ s.extensions, e.text.toList ⊆ received.toList := by
    rw [hextensions]
    exact fun e he => extension_subset he
  rw [VendorList.isValidValue_iff, and_iff_left_iff_imp]
  -- What separates members cannot have come in with a value, and no other entry writes it.
  intro _
  exact ⟨alien_comma.not_mem_encode fun e he hmem => hcomma (hparts e he hmem),
    alien_equals.not_mem_encode fun e he hmem => hequals (hparts e he hmem)⟩

end HopState

end TraceSampling
