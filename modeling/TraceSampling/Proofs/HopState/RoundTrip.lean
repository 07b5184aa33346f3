import TraceSampling.HopState.Wire
import TraceSampling.Proofs.HopState.Entry

/-!
# The wire form is faithful

Reading what was written gives back the state that was written, in every field. The writer leaves
out what the reader supplies by itself, so each group of entries is read on top of the reader's
defaults; the two forms without any entry are told apart by the empty value.
-/

namespace TraceSampling.HopState
open Numeral

/-! ## One group of entries after the other -/

/-- Reads entries on top of a state. -/
def acceptAll (s : HopState) (es : List (List Char)) : HopState :=
  (es.map Entry.read).foldl accept s

@[simp] theorem acceptAll_nil (s : HopState) : s.acceptAll [] = s := rfl

@[simp] theorem acceptAll_cons (s : HopState) (e : List Char) (es : List (List Char)) :
    s.acceptAll (e :: es) = (s.accept (Entry.read e)).acceptAll es := rfl

theorem acceptAll_append (s : HopState) (es fs : List (List Char)) :
    s.acceptAll (es ++ fs) = (s.acceptAll es).acceptAll fs := by
  simp [acceptAll]

theorem acceptAll_workflowEntry {s : HopState} (h : s.workflow = {}) (w : WorkflowMark) :
    s.acceptAll (workflowEntry w) = { s with workflow := w } := by
  unfold workflowEntry
  split
  · next hw => rw [acceptAll_nil, hw, ← h]
  · simp [Entry.read, Entry.readWorkflow_write, accept]

theorem acceptAll_sampleEntry {s : HopState} (hs : s.lineage.sampled = .notMatch)
    (ha : s.lineage.args = none) (l : Lineage) :
    s.acceptAll (sampleEntry l) =
      { s with lineage := { s.lineage with sampled := l.sampled, args := l.args } } := by
  unfold sampleEntry
  split
  · next hl => rw [acceptAll_nil, hl.1, hl.2, ← hs, ← ha]
  · cases hargs : l.args with
    | none => simp [Entry.read, Entry.readSample_write, accept, setSampled, setArgs]
    | some args =>
      have hfits := args.fits_text
      have hne : args.text.toList ≠ [] := by
        intro hnil
        simp [hnil, Args.fits] at hfits
      simp [Entry.read, Entry.readSample_write_args l.sampled hne, accept, setSampled, setArgs,
        Args.ofText?, hfits]

theorem acceptAll_rootEntry {s : HopState} (h : s.lineage.root = .notMatch) (l : Lineage) :
    s.acceptAll (rootEntry l) = s.setRoot l.root := by
  unfold rootEntry
  split
  · next hl => rw [acceptAll_nil, setRoot, hl, ← h]
  · simp [Entry.read, Entry.readStrategy?_writeInt, accept]

theorem acceptAll_extensions (s : HopState) (es : List Extension) :
    s.acceptAll (es.map (·.text.toList)) = { s with extensions := s.extensions ++ es } := by
  induction es generalizing s with
  | nil => simp
  | cons e es ih =>
    simp [ih, Entry.read_extension, accept, Extension.ofText?, e.fits_text]

theorem acceptAll_entries (s : HopState) : initial.resetLineage.acceptAll s.entries = s := by
  rw [entries, acceptAll_append, acceptAll_append, acceptAll_append, acceptAll_workflowEntry rfl,
    acceptAll_sampleEntry rfl rfl, acceptAll_rootEntry rfl, acceptAll_extensions]
  simp [initial, resetLineage, setRoot]

/-! ## The entries come apart -/

theorem separable_workflowEntry (w : WorkflowMark) : Split.Separable ';' (workflowEntry w) := by
  unfold workflowEntry
  split
  · simp [Split.Separable]
  · have hresult := foreign_semicolon.not_mem_writeNat isBase_ten w.result.rank
    have hids := foreign_semicolon.not_mem_writeNat isBase_sixteen
    simp [Split.Separable, hresult, hids]

theorem separable_sampleEntry (l : Lineage) : Split.Separable ';' (sampleEntry l) := by
  unfold sampleEntry
  split
  · simp [Split.Separable]
  · have hint := foreign_semicolon.not_mem_writeInt l.sampled.rank
    cases hargs : l.args with
    | none => simp [Split.Separable, hint]
    | some args =>
      have hsep : ';' ∉ args.text.toList := by
        intro hmem
        have hfits := args.fits_text
        simp only [Args.fits, Bool.and_eq_true, List.all_eq_true] at hfits
        exact absurd (hfits.2 ';' hmem) (by decide)
      simp [Split.Separable, hint, hsep]

theorem separable_rootEntry (l : Lineage) : Split.Separable ';' (rootEntry l) := by
  unfold rootEntry
  split
  · simp [Split.Separable]
  · have hint := foreign_semicolon.not_mem_writeInt l.root.rank
    simp [Split.Separable, hint]

theorem separable_extensions (es : List Extension) :
    Split.Separable ';' (es.map (·.text.toList)) := by
  intro p hp
  obtain ⟨e, -, rfl⟩ := List.mem_map.mp hp
  have hfits := e.fits_text
  simp only [Extension.fits, Bool.and_eq_true] at hfits
  simpa using hfits.1

theorem separable_entries (s : HopState) : Split.Separable ';' s.entries :=
  (((separable_workflowEntry _).append (separable_sampleEntry _)).append
    (separable_rootEntry _)).append (separable_extensions _)

/-! ## Writing and reading -/

theorem decode_join {es : List (List Char)} (hes : es ≠ []) (h : Split.Separable ';' es) :
    decode (String.ofList (Split.join ';' es)) = initial.resetLineage.acceptAll es := by
  have hne : String.ofList (Split.join ';' es) ≠ "" := by
    simpa using Split.join_ne_nil hes h
  simp [decode, hne, Entry.scan, Split.filled_join h, acceptAll]

theorem decode_encode (s : HopState) : decode s.encode = s := by
  unfold encode
  split
  · next h => simp [decode, h]
  · split
    · next h =>
      -- A state without entries holds the defaults that any filled value stands for.
      have hnil : s.entries = [] := by simpa using h
      have hs := acceptAll_entries s
      rw [hnil, acceptAll_nil] at hs
      rw [← hs]
      decide +kernel
    · next h =>
      rw [decode_join (by simpa using h) (separable_entries s), acceptAll_entries]

theorem encode_injective {s t : HopState} (h : s.encode = t.encode) : s = t := by
  rw [← decode_encode s, h, decode_encode]

/-! ## Nothing unknown is lost in reading -/

theorem extensions_accept (s : HopState) {e : Entry}
    (h : ∀ raw, e = .unknown raw → Extension.fits raw.toList = true) :
    (s.accept e).extensions.map (·.text) = s.extensions.map (·.text) ++ e.raw?.toList := by
  cases e with
  | workflow => simp [accept, Entry.raw?]
  | sample => simp [accept, Entry.raw?, setSampled, setArgs]
  | root => simp [accept, Entry.raw?, setRoot]
  | unknown raw => simp [accept, Entry.raw?, Extension.ofText?, h raw rfl]

theorem extensions_acceptAll (s : HopState) {es : List (List Char)} (h : Split.Separable ';' es) :
    (s.acceptAll es).extensions.map (·.text) =
      s.extensions.map (·.text) ++ (es.map Entry.read).filterMap Entry.raw? := by
  induction es generalizing s with
  | nil => simp
  | cons e es ih =>
    have hfits : ∀ raw, Entry.read e = .unknown raw → Extension.fits raw.toList = true :=
      fun raw hread => Entry.fits_of_read hread (h e (by simp)).1 (h e (by simp)).2
    rw [acceptAll_cons, ih _ fun p hp => h p (by simp [hp]), extensions_accept s hfits]
    cases hraw : (Entry.read e).raw? <;> simp [hraw]

/-- The extensions of a carried value are its unknown entries, each as it stands there. -/
theorem extensions_decode (value : String) :
    (decode value).extensions.map (·.text) = (Entry.scan value).filterMap Entry.raw? := by
  unfold decode
  split
  · next h => simp [h, initial, Entry.scan, Split.filled, Split.pieces]
  · exact extensions_acceptAll initial.resetLineage (Split.separable_filled value.toList)

/-! ## States behind any changes -/

inductive Change where
  | args (text : Option String)
  | sampled (strategy : Strategy)
  | root (strategy : Strategy)
  | result (result : EdgeResult)
  | path (path : UInt64)
  | parentPath (path : UInt64)
  | reset
  | egress
  deriving DecidableEq, Repr

def change (s : HopState) : Change → HopState
  | .args text => s.setArgs text
  | .sampled strategy => s.setSampled strategy
  | .root strategy => s.setRoot strategy
  | .result result => { s with workflow := { s.workflow with result } }
  | .path path => { s with workflow := { s.workflow with path } }
  | .parentPath path => { s with workflow := { s.workflow with parentPath := path } }
  | .reset => s.resetLineage
  | .egress => s.egress

/-- The state after changes to the one that was carried, or to the initial one. -/
def reached (carried : Option String) (changes : List Change) : HopState :=
  changes.foldl change ((carried.map decode).getD initial)

/-- The wire form tells states apart, and reading it gives back the whole state. -/
theorem decode_encode_reached (carried : Option String) (changes : List Change) :
    decode (reached carried changes).encode = reached carried changes ∧
      (∀ value, decode (decode value).encode = decode value) ∧
      ∀ carried' changes', (reached carried changes).encode = (reached carried' changes').encode ↔
        reached carried changes = reached carried' changes' := by
  refine ⟨decode_encode _, fun value => decode_encode _, fun carried' changes' => ?_⟩
  exact ⟨encode_injective, congrArg encode⟩

end TraceSampling.HopState
