import TraceSampling.Sampler.Basic

/-!
# What the rotation leaves alone

A view of a sampler that shows neither what is renewed nor where the rotation stands is the same
behind every wake-up. New settings then show in it only as far as they are put in force.
-/

namespace TraceSampling.Sampler

variable {α : Type}

/-- A view that shows nothing of what the rotation changes. -/
structure Fixed (view : Sampler → α) : Prop where
  renew : ∀ s now i, view (s.renew now i) = view s
  rotation : ∀ s r, view { s with rotation := r } = view s

namespace Fixed

variable {view : Sampler → α} (h : Fixed view) (s : Sampler) (now : Nat)

include h

theorem renewAll (items : List Item) : view (items.foldl (·.renew now) s) = view s := by
  induction items generalizing s with
  | nil => rfl
  | cons i items ih => rw [List.foldl_cons, ih, h.renew]

theorem wake (w : WakeUp) : view (s.wake w now) = view s := by
  unfold Sampler.wake
  split
  · rfl
  · rw [h.renewAll, h.rotation]

theorem catchUp : view (s.catchUp now) = view s := by
  unfold Sampler.catchUp
  split
  · exact h.wake s now _
  · rfl

theorem update (settings : Settings) :
    view (s.update settings now) = view (s.publish settings now) := by
  rw [Sampler.update, h.catchUp, h.wake]

end Fixed

theorem fixed_stage : Fixed stage where
  renew s now i := by cases i <;> rfl
  rotation s r := rfl

theorem fixed_isShutDown : Fixed isShutDown where
  renew s now i := by cases i <;> rfl
  rotation s r := rfl

end TraceSampling.Sampler
