import TraceSampling.HopState.Entry
import TraceSampling.Proofs.Text.Numeral
import TraceSampling.Proofs.Text.Split

/-!
# Entries read back

Each kind of entry is read back field by field. Numerals hold no colon, so the first colon behind
them ends a field; arguments may hold colons, and for that reason stand last.
-/

namespace TraceSampling.Entry
open Numeral

/-! ## Fields -/

theorem field_of_not_mem {cs : List Char} (h : ':' ∉ cs) : field cs = (cs, none) := by
  simp [field, Split.cut?_of_not_mem h]

theorem field_append {cs : List Char} (h : ':' ∉ cs) (behind : List Char) :
    field (cs ++ ':' :: behind) = (cs, some behind) := by
  simp [field, Split.cut?_append h]

theorem readResult?_writeNat (r : EdgeResult) : readResult? (writeNat 10 r.rank) = some r := by
  simp [readResult?, readNat?_writeNat isBase_ten]

theorem readPath?_writeNat (p : UInt64) : readPath? (writeNat 16 p.toNat) = some p := by
  have hlen : (writeNat 16 p.toNat).length ≤ 16 := length_writeNat_word p.toNat_lt
  simp [readPath?, hlen, readNat?_writeNat isBase_sixteen]

theorem readStrategy?_writeInt (s : Strategy) : readStrategy? (writeInt s.rank) = some s := by
  simp [readStrategy?, readInt?_writeInt]

/-! ## Entries -/

theorem readWorkflow_write (w : WorkflowMark) :
    readWorkflow (writeNat 10 w.result.rank ++ ':' :: (writeNat 16 w.path.toNat ++
      ':' :: writeNat 16 w.parentPath.toNat)) =
      .workflow (some w.result) (some w.path) (some w.parentPath) := by
  have hresult := field_append (foreign_colon.not_mem_writeNat isBase_ten w.result.rank)
    (writeNat 16 w.path.toNat ++ ':' :: writeNat 16 w.parentPath.toNat)
  have hids := field_append (foreign_colon.not_mem_writeNat isBase_sixteen w.path.toNat)
    (writeNat 16 w.parentPath.toNat)
  simp [readWorkflow, hresult, hids, readResult?_writeNat, readPath?_writeNat]

theorem readSample_write (s : Strategy) : readSample (writeInt s.rank) = .sample (some s) none := by
  have hfield := field_of_not_mem (foreign_colon.not_mem_writeInt s.rank)
  simp [readSample, hfield, readStrategy?_writeInt]

theorem readSample_write_args (s : Strategy) {args : List Char} (h : args ≠ []) :
    readSample (writeInt s.rank ++ ':' :: args) = .sample (some s) (some (String.ofList args)) := by
  have hfield := field_append (foreign_colon.not_mem_writeInt s.rank) args
  simp [readSample, hfield, readStrategy?_writeInt, h]

/-! ## Entries of no known kind -/

theorem read_extension (e : Extension) : read e.text.toList = .unknown e.text := by
  have hfits := e.fits_text
  unfold read
  split
  · next h => simp [h, Extension.fits] at hfits
  · next h => simp [h, Extension.fits] at hfits
  · next h => simp [h, Extension.fits] at hfits
  · simp

/-- The text of an entry that nothing is known about. -/
def raw? : Entry → Option String
  | .unknown raw => some raw
  | _ => none

theorem eq_ofList_of_read {cs : List Char} {raw : String} (h : read cs = .unknown raw) :
    raw = String.ofList cs := by
  unfold read at h
  split at h
  · simp [readWorkflow] at h
  · simp [readSample] at h
  · cases h
  · cases h
    rfl

theorem fits_of_read {cs : List Char} {raw : String} (h : read cs = .unknown raw) (hne : cs ≠ [])
    (hsep : ';' ∉ cs) : Extension.fits raw.toList = true := by
  cases eq_ofList_of_read h
  simp only [Extension.fits, String.toList_ofList, Bool.and_eq_true]
  refine ⟨by simp [hne, hsep], ?_⟩
  split
  · next kind _ =>
    have hw : kind ≠ 'w' := by
      rintro rfl
      simp [read, readWorkflow] at h
    have hs : kind ≠ 's' := by
      rintro rfl
      simp [read, readSample] at h
    have hr : kind ≠ 'r' := by
      rintro rfl
      simp [read] at h
    simp [hw, hs, hr]
  · rfl

end TraceSampling.Entry
