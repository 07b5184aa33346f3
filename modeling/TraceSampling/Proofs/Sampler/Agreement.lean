import TraceSampling.Proofs.HopState.RoundTrip
import TraceSampling.Sampler.Basic

/-!
# The decision and the state handed on

Whatever the decision stage did to the carried state and whatever it answered, the state that leaves
with a decision says what was decided: in memory, in its leaving form, and as the next hop reads it
from the wire.
-/

namespace TraceSampling

theorem Strategy.ne_notExist_of_isSampled {s : Strategy} (h : s.isSampled = true) :
    s ≠ .notExist := by
  rintro rfl
  exact absurd h (by decide)

/-- A lineage that says of a hop what was decided about it. -/
structure Lineage.Agrees (l : Lineage) (d : Decision) : Prop where
  sampled_iff : d = .recordAndSample ↔ l.sampled.isSampled = true
  sampled_ne : l.sampled ≠ .notExist
  root_ne : l.root ≠ .notExist

theorem Lineage.align_agrees (l : Lineage) (d : Decision) : (l.align d).Agrees d := by
  unfold align
  extract_lets m
  have hroot : m.root ≠ .notExist := by
    simp only [m]
    split
    · simp
    · next h => exact h
  by_cases hd : d = .recordAndSample
  · rw [if_pos hd]
    split
    · next hs => exact ⟨by simp [hd, hs], Strategy.ne_notExist_of_isSampled hs, hroot⟩
    · refine ⟨iff_of_true hd rfl, by simp, ?_⟩
      simp only
      split
      · exact hroot
      · simp
  · rw [if_neg hd]
    split
    · have hs : ¬ Strategy.notMatch.isSampled = true := by decide
      exact ⟨iff_of_false hd hs, by simp, hroot⟩
    · next h =>
      obtain ⟨hs, hne⟩ := not_or.mp h
      exact ⟨iff_of_false hd hs, hne, hroot⟩

namespace HopState

@[simp] theorem egress_sampled (s : HopState) :
    s.egress.lineage.sampled = s.lineage.sampled := by
  unfold egress
  split <;> rfl

theorem isLegacy_eq_false {s : HopState} (h : s.lineage.sampled ≠ .notExist) :
    s.isLegacy = false := by
  simp [isLegacy, h]

end HopState

namespace Sampler

theorem sample_lineage_agrees (s : Sampler) (r : Request) (now : Nat) :
    (s.sample r now).2.state.lineage.Agrees (s.sample r now).2.decision :=
  Lineage.align_agrees _ _

/-- The next hop reads from the wire that it has a parent which speaks the protocol and was kept
or not, as it was decided. -/
theorem sample_agrees (s : Sampler) (r : Request) (now : Nat) :
    let result := (s.sample r now).2
    let received := HopState.decode result.state.egress.encode
    (result.decision = .recordAndSample ↔ result.state.lineage.sampled.isSampled = true) ∧
      result.state.lineage.sampled ≠ .notExist ∧ result.state.lineage.root ≠ .notExist ∧
      received.isLegacy = false ∧
      (received.lineage.sampled.isSampled = true ↔ result.decision = .recordAndSample) := by
  intro result received
  have hagrees : result.state.lineage.Agrees result.decision := sample_lineage_agrees s r now
  have hreceived : received.lineage.sampled = result.state.lineage.sampled := by
    simp only [received, HopState.decode_encode, HopState.egress_sampled]
  refine ⟨hagrees.sampled_iff, hagrees.sampled_ne, hagrees.root_ne, ?_, ?_⟩
  · exact HopState.isLegacy_eq_false (by rw [hreceived]; exact hagrees.sampled_ne)
  · rw [hreceived]
    exact hagrees.sampled_iff.symm

end Sampler

end TraceSampling
