import Mathlib.Data.List.Forall2
import TraceSampling.Proofs.Binary64.Unit
import TraceSampling.Proofs.Sampler.Replacement

/-!
# Settings in range

Sanitising brings every fraction into the unit interval and every duration that time has to pass by
above zero. It changes nothing else and nothing that is in range already, so it does not matter how
often it is done. All settings that a sampler ever has in force have gone through it.
-/

namespace TraceSampling

open Binary64 (Clamped)

/-! ## Fractions and durations -/

theorem Default.inUnit_fraction : Default.fraction.InUnit :=
  Binary64.inUnit_iff.mpr (by decide +kernel)

theorem nonZeroOr_of_ne_zero {n : Nat} (h : n ≠ 0) (fallback : Nat) : nonZeroOr fallback n = n :=
  if_neg h

/-- The duration `m` that takes the place of `n`. -/
structure Lasting (fallback n m : Nat) : Prop where
  ne_zero : m ≠ 0
  kept : n ≠ 0 → m = n
  replaced : n = 0 → m = fallback

theorem lasting_nonZeroOr {fallback : Nat} (h : fallback ≠ 0) (n : Nat) :
    Lasting fallback n (nonZeroOr fallback n) where
  ne_zero := (nonZeroOr_pos (Nat.pos_of_ne_zero h) n).ne'
  kept hn := nonZeroOr_of_ne_zero hn fallback
  replaced hn := if_pos hn

/-! ## Tables -/

namespace Table

variable {α β : Type}

/-- The same names in the same order, and related values under them. -/
def Matched (R : α → β → Prop) (t : Table α) (u : Table β) : Prop :=
  List.Forall₂ (fun e e' => e'.1 = e.1 ∧ R e.2 e'.2) t u

theorem matched_mapValues {f : α → β} {R : α → β → Prop} (h : ∀ v, R v (f v)) (t : Table α) :
    Matched R t (t.mapValues f) := by
  rw [Matched, mapValues, List.forall₂_map_right_iff, List.forall₂_same]
  exact fun e _ => ⟨rfl, h e.2⟩

theorem Matched.forall_right {R : α → β → Prop} {P : β → Prop} {t : Table α} {u : Table β}
    (h : Matched R t u) (hvalue : ∀ v w, R v w → P w) : ∀ e ∈ u, P e.2 := by
  unfold Matched at h
  induction h with
  | nil => simp
  | cons hhead _ ih => exact List.forall_mem_cons.mpr ⟨hvalue _ _ hhead.2, ih⟩

theorem mapValues_eq_self {f : α → α} {t : Table α} (h : ∀ e ∈ t, f e.2 = e.2) :
    t.mapValues f = t := by
  have hentries : ∀ e ∈ t, (e.1, f e.2) = id e := fun e he => Prod.ext rfl (h e he)
  exact (List.map_congr_left hentries).trans (List.map_id t)

end Table

/-! ## Settings -/

namespace Settings

/-- All fractions are in the unit interval and all durations are above zero. -/
structure InRange (s : Settings) : Prop where
  fraction : s.fraction.InUnit
  kindFractions : ∀ e ∈ s.kindFractions, e.2.InUnit
  methodFractions : ∀ e ∈ s.methodFractions, e.2.InUnit
  errorFraction : s.deferred.errorFraction.InUnit
  window : s.minSample.windowSecs ≠ 0
  cacheLifetime : s.workflow.cacheLifetimeSecs ≠ 0
  tick : s.rateLimit.tickMs ≠ 0

/-- The settings `t` differ from `s` only in the fractions and durations that are out of range;
names stay with their fractions. -/
structure Repaired (s t : Settings) : Prop where
  fraction : Clamped Default.fraction s.fraction t.fraction
  kindFractions : Table.Matched (Clamped Default.fraction) s.kindFractions t.kindFractions
  methodFractions : Table.Matched (Clamped Default.fraction) s.methodFractions t.methodFractions
  errorFraction : Clamped Binary64.one s.deferred.errorFraction t.deferred.errorFraction
  window : Lasting Default.windowSecs s.minSample.windowSecs t.minSample.windowSecs
  cacheLifetime :
    Lasting Default.cacheLifetimeSecs s.workflow.cacheLifetimeSecs t.workflow.cacheLifetimeSecs
  tick : Lasting Default.tickMs s.rateLimit.tickMs t.rateLimit.tickMs
  others : t = { s with
    fraction := t.fraction
    kindFractions := t.kindFractions
    methodFractions := t.methodFractions
    deferred := { s.deferred with errorFraction := t.deferred.errorFraction }
    minSample := { s.minSample with windowSecs := t.minSample.windowSecs }
    workflow := { s.workflow with cacheLifetimeSecs := t.workflow.cacheLifetimeSecs }
    rateLimit := { s.rateLimit with tickMs := t.rateLimit.tickMs } }

theorem inRange_default : ({} : Settings).InRange where
  fraction := Default.inUnit_fraction
  kindFractions := by simp
  methodFractions := by simp
  errorFraction := Binary64.inUnit_one
  window := by decide
  cacheLifetime := by decide
  tick := by decide

variable (s : Settings)

theorem repaired_sanitize : s.Repaired s.sanitize where
  fraction := Binary64.clamped_clampUnit Default.inUnit_fraction _
  kindFractions := Table.matched_mapValues (Binary64.clamped_clampUnit Default.inUnit_fraction) _
  methodFractions := Table.matched_mapValues (Binary64.clamped_clampUnit Default.inUnit_fraction) _
  errorFraction := Binary64.clamped_clampUnit Binary64.inUnit_one _
  window := lasting_nonZeroOr (by decide) _
  cacheLifetime := lasting_nonZeroOr (by decide) _
  tick := lasting_nonZeroOr (by decide) _
  others := rfl

variable {s}

/-- Whatever repairs settings brings them into range. -/
theorem Repaired.inRange {t : Settings} (h : s.Repaired t) : t.InRange where
  fraction := h.fraction.inUnit
  kindFractions := h.kindFractions.forall_right fun _ _ hclamped => hclamped.inUnit
  methodFractions := h.methodFractions.forall_right fun _ _ hclamped => hclamped.inUnit
  errorFraction := h.errorFraction.inUnit
  window := h.window.ne_zero
  cacheLifetime := h.cacheLifetime.ne_zero
  tick := h.tick.ne_zero

theorem sanitize_eq_self (h : s.InRange) : s.sanitize = s := by
  have hkinds : s.kindFractions.mapValues (·.clampUnit Default.fraction) = s.kindFractions :=
    Table.mapValues_eq_self fun e he => Binary64.clampUnit_of_inUnit (h.kindFractions e he)
  have hmethods : s.methodFractions.mapValues (·.clampUnit Default.fraction) = s.methodFractions :=
    Table.mapValues_eq_self fun e he => Binary64.clampUnit_of_inUnit (h.methodFractions e he)
  rw [sanitize, Binary64.clampUnit_of_inUnit h.fraction, hkinds, hmethods,
    Binary64.clampUnit_of_inUnit h.errorFraction, nonZeroOr_of_ne_zero h.window,
    nonZeroOr_of_ne_zero h.cacheLifetime, nonZeroOr_of_ne_zero h.tick]

end Settings

theorem Sampler.Obeys.make (o : SamplerOptions) (start : Nat) :
    (Sampler.make o start).Obeys o.settings where
  snapshot_eq := rfl
  limit_eq := rfl
  waiting_eq r hr _ := by
    unfold Sampler.make at hr
    dsimp only at hr
    split at hr
    · obtain rfl := Option.some.inj hr
      rfl
    · cases hr

namespace Settings

/-- Sanitising repairs any settings, so they are in range, and doing so again changes nothing. In
range are then the settings of every snapshot compiled, and those that a sampler has in force behind
any uses. -/
theorem sanitize_projects (s : Settings) :
    s.Repaired s.sanitize ∧ s.sanitize.InRange ∧ s.sanitize.sanitize = s.sanitize ∧
      (Snapshot.compile s).settings.InRange ∧
      ∀ (o : SamplerOptions) (start : Nat) (uses : List SamplerUse),
        ((Sampler.make o start).useAll uses).snapshot.settings.InRange := by
  have hrange : ∀ c : Settings, c.sanitize.InRange := fun c => c.repaired_sanitize.inRange
  refine ⟨s.repaired_sanitize, hrange s, sanitize_eq_self (hrange s), hrange s, ?_⟩
  intro o start uses
  rw [((Sampler.Obeys.make o start).useAll uses).snapshot_eq]
  exact hrange _

/-- No number, a zero with a sign, minus infinity and the number next to one. -/
def outlandish : Settings where
  fraction := .ofPattern true Binary64.quietPattern
  kindFractions := [("server", .ofPattern true 0), ("client", .ofPattern true 0x7ff0000000000000)]
  methodFractions := [("GET /", .ofPattern false 0x3ff0000000000001)]
  rateLimit.tickMs := 0

example : outlandish.sanitize =
    { kindFractions := [("server", .ofPattern true 0), ("client", .zero)]
      methodFractions := [("GET /", .one)] } := by
  decide +kernel

end Settings

end TraceSampling
