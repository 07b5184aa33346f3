import TraceSampling.Proofs.Dyeing.History
import TraceSampling.Proofs.Hash
import TraceSampling.Proofs.Text.Base64Form

/-!
# The text of a filter

A filter is opened from its own text again. The other way round a text that opens a filter is, apart
from the blanks around it, the text of this filter. So each filter has one text only.
-/

namespace TraceSampling

section Outcomes

variable {ε ε' α β : Type} {x : Except ε α}

theorem ok_of_bind {f : α → Except ε β} {b : β} (h : x >>= f = .ok b) :
    ∃ a, x = .ok a ∧ f a = .ok b := by
  cases x with
  | error e => cases h
  | ok a => exact ⟨a, rfl, h⟩

theorem ok_of_mapError {f : ε → ε'} {a : α} (h : x.mapError f = .ok a) : x = .ok a := by
  cases x with
  | error e => cases h
  | ok b => exact congrArg _ (Except.ok.inj h)

end Outcomes

theorem FilterGeometry.of_make_eq_ok {bitSize hashCount : Nat} {g : FilterGeometry}
    (h : make bitSize hashCount = .ok g) : g.bitSize = bitSize ∧ g.hashCount = hashCount := by
  unfold make at h
  split at h
  · split at h
    · obtain rfl := Except.ok.inj h
      exact ⟨rfl, rfl⟩
    · cases h
  · cases h

namespace BloomFilter

variable {bitSize hashCount : Nat} {bytes : List UInt8} {text : String} {f : BloomFilter}

theorem ofBitmap_eq_ok_iff :
    ofBitmap bitSize hashCount bytes = .ok f ↔
      f.geometry.bitSize = bitSize ∧ f.geometry.hashCount = hashCount ∧
        f.bitmap.toBytes = bytes := by
  constructor
  · intro h
    obtain ⟨g, hgeometry, hbitmap⟩ := ok_of_bind h
    obtain ⟨hbits, hcount⟩ := FilterGeometry.of_make_eq_ok hgeometry
    split at hbitmap
    · obtain rfl := Except.ok.inj hbitmap
      exact ⟨hbits, hcount, Bitmap.toBytes_ofBytes bytes⟩
    · cases hbitmap
  · rintro ⟨rfl, rfl, rfl⟩
    exact f.ofBitmap_toBytes

theorem ofBase64_eq_ok_iff :
    ofBase64 bitSize hashCount text = .ok f ↔
      f.geometry.bitSize = bitSize ∧ f.geometry.hashCount = hashCount ∧
        f.toBase64.toList = Blank.trim text.toList := by
  constructor
  · intro h
    obtain ⟨bytes, hbytes, hbitmap⟩ := ok_of_bind h
    obtain ⟨hbits, hcount, rfl⟩ := ofBitmap_eq_ok_iff.mp hbitmap
    refine ⟨hbits, hcount, ?_⟩
    rw [← f.trim_toBase64]
    apply utf8_injective
    rw [f.utf8_trim_toBase64, Base64.decode_eq_ok_iff.mp (ok_of_mapError hbytes)]
  · rintro ⟨rfl, rfl, htext⟩
    have hshipped := f.ofBase64_toBase64
    unfold ofBase64 at hshipped ⊢
    rwa [f.trim_toBase64.trans htext] at hshipped

/-- A filter is opened from its text with its geometry, and whatever opens it is this text between
blanks. -/
theorem shipped_text_unique :
    (∀ f : BloomFilter, ofBase64 f.geometry.bitSize f.geometry.hashCount f.toBase64 = .ok f) ∧
    (∀ bitSize hashCount text f, ofBase64 bitSize hashCount text = .ok f →
      f.toBase64 = String.ofList (Blank.trim text.toList)) ∧
    ∀ bitSize hashCount text bitSize' hashCount' text' f,
      ofBase64 bitSize hashCount text = .ok f → ofBase64 bitSize' hashCount' text' = .ok f →
        Blank.trim text.toList = Blank.trim text'.toList := by
  refine ⟨ofBase64_toBase64, ?_, ?_⟩
  · intro bitSize hashCount text f h
    obtain ⟨-, -, htext⟩ := ofBase64_eq_ok_iff.mp h
    rw [← htext, String.ofList_toList]
  · intro bitSize hashCount text bitSize' hashCount' text' f h h'
    obtain ⟨-, -, htext⟩ := ofBase64_eq_ok_iff.mp h
    obtain ⟨-, -, htext'⟩ := ofBase64_eq_ok_iff.mp h'
    exact htext.symm.trans htext'

/-- A filter with more bytes than its bits need. -/
def roomyFilter : BloomFilter where
  geometry := ⟨12, 3, by decide, by decide, by decide, by decide⟩
  bitmap := .ofBytes [0x81, 0, 0xff, 0xf0]
  covers := by decide

theorem shipped_roomyFilter :
    ofBase64 12 3 "\u2003gQD/8A==\n" = .ok roomyFilter ∧
      ofBase64 12 3 "gQD/8A==\t" = .ok roomyFilter ∧ roomyFilter.toBase64 = "gQD/8A==" ∧
      Blank.trim "\u2003gQD/8A==\n".toList = Blank.trim "gQD/8A==\t".toList := by
  have hopened : ofBase64 12 3 "\u2003gQD/8A==\n" = .ok roomyFilter :=
    ofBase64_eq_ok_iff.mpr ⟨rfl, rfl, by decide +kernel⟩
  have hagain : ofBase64 12 3 "gQD/8A==\t" = .ok roomyFilter :=
    ofBase64_eq_ok_iff.mpr ⟨rfl, rfl, by decide +kernel⟩
  obtain ⟨-, htext, hunique⟩ := shipped_text_unique
  refine ⟨hopened, hagain, ?_, hunique _ _ _ _ _ _ _ hopened hagain⟩
  rw [htext _ _ _ _ hopened]
  decide +kernel

end BloomFilter

end TraceSampling
