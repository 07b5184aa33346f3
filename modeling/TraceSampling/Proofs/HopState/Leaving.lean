import TraceSampling.Proofs.HopState.Header

/-!
# The leaving state in the header

A state that leaves takes the place of the entry in the header, or takes it away, and the members of
other vendors stay as they are. Without extensions no wire form comes near the largest value: ids have
a width, arguments have one, and all that is written takes one byte to the character.
-/

namespace TraceSampling

/-! ## Members of other keys -/

namespace VendorList

theorem filter_eraseP (key : String) (ms : List VendorMember) :
    (ms.eraseP (·.key = key)).filter (·.key ≠ key) = ms.filter (·.key ≠ key) := by
  induction ms with
  | nil => rfl
  | cons m ms ih =>
    by_cases hm : m.key = key
    · simp [hm]
    · simpa [hm] using ih

/-- The members of other keys, as they stand. -/
def others (l : VendorList) (key : String) : List VendorMember := l.members.filter (·.key ≠ key)

theorem others_without (l : VendorList) (key : String) :
    (l.without key).others key = l.others key :=
  filter_eraseP key l.members

theorem others_cons_self (l : VendorList) (key value : String) :
    others ⟨⟨key, value⟩ :: l.members⟩ key = l.others key :=
  List.filter_cons_of_neg (by simp)

end VendorList

namespace HopState

/-! ## Width of the wire form -/

theorem alien_of_wide {c : Char} (h : 127 < c.val) : Alien c := by
  have hwide (d : Char) (hd : d.val ≤ 127) : ¬ c ≤ d := fun hle =>
    absurd (UInt32.le_trans hle hd) (UInt32.not_le.mpr h)
  have hdigits := hwide '9' (by decide)
  have hlower := hwide 'f' (by decide)
  have hupper := hwide 'F' (by decide)
  refine ⟨⟨fun b => ?_, ?_⟩, ?_, ?_⟩
  · simp [Numeral.digitValue?, hdigits, hlower, hupper]
  · rintro rfl
    exact absurd h (by decide)
  · simp [Args.isChar, hwide '~' (by decide)]
  · intro hmem
    simp only [List.mem_cons, List.not_mem_nil, or_false] at hmem
    rcases hmem with rfl | rfl | rfl | rfl | rfl | rfl <;> exact absurd h (by decide)

/-- The room that entries take with a separator behind each. -/
def room (es : List (List Char)) : Nat := (es.map (·.length + 1)).sum

theorem room_append (es fs : List (List Char)) : room (es ++ fs) = room es + room fs := by
  simp [room]

theorem room_workflowEntry (w : WorkflowMark) : room (workflowEntry w) ≤ 38 := by
  have hresult : (Numeral.writeNat 10 w.result.rank).length = 1 := by
    cases w.result <;> rfl
  have hpath := Numeral.length_writeNat_word w.path.toNat_lt
  have hparent := Numeral.length_writeNat_word w.parentPath.toNat_lt
  unfold workflowEntry
  split
  · simp [room]
  · simp only [room, List.map_cons, List.map_nil, List.sum_cons, List.sum_nil, List.cons_append,
      List.length_cons, List.length_append]
    omega

theorem length_writeInt_rank (s : Strategy) : (Numeral.writeInt s.rank).length ≤ 2 := by
  cases s <;> decide

theorem Args.length_text_le (args : Args) : args.text.toList.length ≤ 64 := by
  have hfits := args.fits_text
  simp only [Args.fits, Bool.and_eq_true, decide_eq_true_eq] at hfits
  exact hfits.1.2

theorem room_sampleEntry (l : Lineage) : room (sampleEntry l) ≤ 70 := by
  have hrank := length_writeInt_rank l.sampled
  unfold sampleEntry
  split
  · simp [room]
  · cases hargs : l.args with
    | none =>
      simp only [room, List.map_cons, List.map_nil, List.sum_cons, List.sum_nil, List.length_cons,
        List.append_nil]
      omega
    | some args =>
      have htext := Args.length_text_le args
      simp only [room, List.map_cons, List.map_nil, List.sum_cons, List.sum_nil, List.cons_append,
        List.length_cons, List.length_append]
      omega

theorem room_rootEntry (l : Lineage) : room (rootEntry l) ≤ 5 := by
  have hrank := length_writeInt_rank l.root
  unfold rootEntry
  split
  · simp [room]
  · simp only [room, List.map_cons, List.map_nil, List.sum_cons, List.sum_nil, List.length_cons]
    omega

variable {s : HopState}

theorem length_encode_le (h : s.extensions = []) : s.encode.toList.length ≤ 112 := by
  have hroom : room s.entries ≤ 38 + 70 + 5 := by
    rw [entries, h, List.map_nil, List.append_nil, room_append, room_append]
    exact Nat.add_le_add (Nat.add_le_add (room_workflowEntry _) (room_sampleEntry _))
      (room_rootEntry _)
  unfold encode
  split
  · simp
  · split
    · decide
    · next hentries =>
      have hne : s.entries ≠ [] := by simpa using hentries
      have hjoin : (Split.join ';' s.entries).length + 1 = room s.entries := Split.length_join hne
      rw [String.toList_ofList]
      omega

/-- Without extensions the wire form is a value, whatever the ids, strategies and arguments are. -/
theorem isValidValue_encode_of_plain (h : s.extensions = []) :
    VendorList.isValidValue s.encode = true := by
  have hnone {c : Char} : ∀ e ∈ s.extensions, c ∉ e.text.toList := by
    intro e he
    rw [h] at he
    cases he
  have hnarrow : ∀ c ∈ s.encode.toList, c.val ≤ 127 := fun c hc =>
    UInt32.not_lt.mp fun hwide => (alien_of_wide hwide).not_mem_encode hnone hc
  have hsize : s.encode.utf8ByteSize ≤ 256 := by
    rw [← String.ofList_toList (s := s.encode), Split.utf8ByteSize_of_narrow hnarrow]
    exact Nat.le_trans (length_encode_le h) (by decide)
  exact (VendorList.isValidValue_iff _).mpr
    ⟨hsize, alien_comma.not_mem_encode hnone, alien_equals.not_mem_encode hnone⟩

/-! ## Into the header -/

variable (l : VendorList)

theorem applyTo_of_initial (h : s.egress = initial) : s.applyTo l = l.without vendorKey := by
  simp [applyTo, h, encode, VendorList.erase, isValidKey_vendorKey]

theorem others_applyTo (s : HopState) (l : VendorList) :
    (s.applyTo l).others vendorKey = l.others vendorKey := by
  by_cases h : s.egress = initial
  · rw [applyTo_of_initial l h, VendorList.others_without]
  · rw [applyTo_eq l h]
    split
    · rw [VendorList.others_cons_self, VendorList.others_without]
    · rfl

theorem extensions_eq_nil_of_unknown? (h : s.unknown? = none) : s.extensions = [] := by
  unfold unknown? at h
  split at h
  · next hempty => simpa using hempty
  · cases h

/-- A wire form that is a value stands in front of the header, in place of the first entry, and is
read back as it left; without extensions every wire form is a value. The empty wire form takes the
first entry away. All other members stay as they are. -/
theorem applyTo_replaces_entry (s : HopState) (l : VendorList) :
    (s.egress.encode ≠ "" → s.egress.encode.utf8ByteSize ≤ 256 →
      ',' ∉ s.egress.encode.toList → '=' ∉ s.egress.encode.toList →
        (s.applyTo l).members =
            ⟨vendorKey, s.egress.encode⟩ :: l.members.eraseP (·.key = vendorKey) ∧
          ofVendorList (s.applyTo l) = s.egress) ∧
    (s.unknown? = none →
      s.egress.encode.utf8ByteSize ≤ 256 ∧
        ',' ∉ s.egress.encode.toList ∧ '=' ∉ s.egress.encode.toList) ∧
    (s.egress.encode = "" → (s.applyTo l).members = l.members.eraseP (·.key = vendorKey)) ∧
    (s.applyTo l).others vendorKey = l.others vendorKey := by
  refine ⟨fun hfilled hsize hcomma hequals => ?_, fun hplain => ?_, fun hempty => ?_,
    others_applyTo s l⟩
  · have hleaving : s.egress ≠ initial := fun h => hfilled ((encode_eq_empty_iff _).mpr h)
    have hvalid := (VendorList.isValidValue_iff _).mpr ⟨hsize, hcomma, hequals⟩
    constructor
    · rw [applyTo_eq l hleaving, if_pos hvalid]
      rfl
    · rw [ofVendorList_applyTo l hleaving, if_pos hvalid]
  · have hextensions : s.egress.extensions = [] := by
      rw [egress_extensions, extensions_eq_nil_of_unknown? hplain]
    exact (VendorList.isValidValue_iff _).mp (isValidValue_encode_of_plain hextensions)
  · rw [applyTo_of_initial l ((encode_eq_empty_iff _).mp hempty)]
    rfl

/-- A state whose wire form is as long as one without extensions can be. -/
def widestState : HopState where
  workflow := ⟨.path, 0xffffffffffffffff, 0xffffffffffffffff⟩
  lineage :=
    { sampled := .notExist
      root := .notExist
      args := some ⟨String.ofList (List.replicate 64 '~'), by decide +kernel⟩ }

/-- A header with two entries among those of other vendors. -/
def crowdedHeader : VendorList := ⟨[⟨"rojo", "1"⟩, ⟨"as", "s:4"⟩, ⟨"congo", "2"⟩, ⟨"as", "s:5"⟩]⟩

theorem applyTo_widestState :
    widestState.unknown? = none ∧ widestState.egress.encode ≠ "" ∧
      widestState.egress.encode.utf8ByteSize = 112 ∧
      (widestState.applyTo crowdedHeader).members =
        [⟨"as", widestState.egress.encode⟩, ⟨"rojo", "1"⟩, ⟨"congo", "2"⟩, ⟨"as", "s:5"⟩] ∧
      ofVendorList (widestState.applyTo crowdedHeader) = widestState.egress ∧
      initial.egress.encode = "" ∧
      (initial.applyTo crowdedHeader).members = [⟨"rojo", "1"⟩, ⟨"congo", "2"⟩, ⟨"as", "s:5"⟩] := by
  obtain ⟨hput, hplain, -, -⟩ := applyTo_replaces_entry widestState crowdedHeader
  obtain ⟨-, -, htake, -⟩ := applyTo_replaces_entry initial crowdedHeader
  have hunknown : widestState.unknown? = none := by decide +kernel
  have hfilled : widestState.egress.encode ≠ "" := by decide +kernel
  have hempty : initial.egress.encode = "" := by decide +kernel
  obtain ⟨hsize, hcomma, hequals⟩ := hplain hunknown
  obtain ⟨hmembers, hread⟩ := hput hfilled hsize hcomma hequals
  exact ⟨hunknown, hfilled, by decide +kernel, hmembers, hread, hempty, htake hempty⟩

end HopState

end TraceSampling
