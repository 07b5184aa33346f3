import Mathlib.Data.List.Nodup
import TraceSampling.Proofs.Sampler.Frame
import TraceSampling.Proofs.Table
import TraceSampling.Registry

/-!
# Single operations on a registry

Three things make up the life cycle of samplers: which handles are registered under which targets,
how many samplers there are, and which of them have been shut down. Here is what each operation does
to them. An operation that fails on a target changes nothing.
-/

namespace TraceSampling

/-! ## Tables without repeated names -/

namespace Table

variable {α : Type} {t : Table α}

theorem get?_eq_none_iff (name : String) : t.get? name = none ↔ name ∉ t.map (·.1) := by
  rw [← isSome_lookup_iff, Bool.not_eq_true, Option.isSome_eq_false_iff, Option.isNone_iff_eq_none]
  rfl

theorem mem_of_get? {name : String} {value : α} (h : t.get? name = some value) :
    (name, value) ∈ t := by
  obtain ⟨before, behind, rfl, -⟩ := List.lookup_eq_some_iff.mp h
  simp

theorem get?_of_mem (hnames : (t.map (·.1)).Nodup) {name : String} {value : α}
    (h : (name, value) ∈ t) : t.get? name = some value := by
  have hmem : name ∈ t.map (·.1) := List.mem_map_of_mem h
  obtain ⟨found, hfound⟩ := Option.isSome_iff_exists.mp ((isSome_lookup_iff name t).mpr hmem)
  have hsame : (name, found) = (name, value) :=
    List.inj_on_of_nodup_map hnames (mem_of_get? hfound) h rfl
  rw [← (Prod.mk.inj hsame).2]
  exact hfound

theorem put_of_absent {name : String} (h : t.get? name = none) (value : α) :
    t.put name value = t ++ [(name, value)] := by
  induction t with
  | nil => rfl
  | cons entry rest ih => grind [get?, put]

end Table

/-! ## One sampler -/

namespace Sampler

variable (s : Sampler) (now : Nat)

theorem isShutDown_update (c : Settings) : (s.update c now).isShutDown = s.isShutDown :=
  fixed_isShutDown.update s now c

theorem isShutDown_shutDown : (s.shutDown now).1.isShutDown = true := by
  unfold shutDown
  split
  · next h => exact h
  · rfl

theorem shutDown_outcome :
    (s.shutDown now).2 = if s.isShutDown then .error .alreadyShutDown else .ok () := by
  unfold shutDown
  split <;> rfl

end Sampler

/-! ## Samplers behind handles -/

namespace Registry

variable (r : Registry) (h k : Handle) (now : Nat)

/-- The handles that are registered. -/
def handles : List Handle := r.targets.map (·.2)

def hasShutDown : Bool := (r.sampler? h).any (·.isShutDown)

theorem sampler?_set (s : Sampler) :
    (r.set h s).sampler? k = if k = h then (r.sampler? k).map fun _ => s else r.sampler? k := by
  unfold set sampler?
  rw [List.getElem?_set]
  by_cases hk : h = k
  · subst hk
    rw [if_pos rfl, if_pos rfl]
    split
    · next hlt => rw [List.getElem?_eq_getElem hlt, Option.map_some]
    · next hlt => rw [List.getElem?_eq_none (Nat.le_of_not_lt hlt), Option.map_none]
  · rw [if_neg hk, if_neg (Ne.symm hk)]

theorem hasShutDown_set (s : Sampler) :
    (r.set h s).hasShutDown k =
      if k = h then (r.sampler? k).any fun _ => s.isShutDown else r.hasShutDown k := by
  unfold hasShutDown
  rw [sampler?_set]
  split
  · rw [Option.any_map]
  · rfl

theorem exists_sampler {h : Handle} (hlt : h < r.pool.length) : ∃ s, r.sampler? h = some s :=
  ⟨_, List.getElem?_eq_getElem hlt⟩

theorem lt_of_sampler? {h : Handle} {s : Sampler} (hs : r.sampler? h = some s) :
    h < r.pool.length := (List.getElem?_eq_some_iff.mp hs).1

theorem hasShutDown_of_le {h : Handle} (hle : r.pool.length ≤ h) : r.hasShutDown h = false := by
  rw [hasShutDown, sampler?, List.getElem?_eq_none hle]
  rfl

/-- A sampler that is put behind a new handle has not been shut down. -/
theorem hasShutDown_append (o : SamplerOptions) (targets : Table Handle) :
    hasShutDown ⟨r.pool ++ [Sampler.make o now], targets⟩ k = r.hasShutDown k := by
  rcases Nat.lt_trichotomy k r.pool.length with hlt | rfl | hgt
  · rw [hasShutDown, sampler?, List.getElem?_append_left hlt]
    rfl
  · rw [r.hasShutDown_of_le (Nat.le_refl _), hasShutDown, sampler?, List.getElem?_concat_length]
    rfl
  · rw [r.hasShutDown_of_le (Nat.le_of_lt hgt)]
    exact hasShutDown_of_le _ (by rw [List.length_append]; exact hgt)

/-! ## Shutting down -/

/-- Behind the shut-down of some handles. -/
structure ShutsDown (r next : Registry) (hs : List Handle) : Prop where
  targets_eq : next.targets = r.targets
  length_eq : next.pool.length = r.pool.length
  hasShutDown_iff : ∀ k, next.hasShutDown k = true ↔
    r.hasShutDown k = true ∨ k ∈ hs ∧ k < r.pool.length

namespace ShutsDown

theorem refl : r.ShutsDown r [] := ⟨rfl, rfl, fun k => by simp⟩

theorem trans {r next last : Registry} {hs others : List Handle} (hfirst : r.ShutsDown next hs)
    (hthen : next.ShutsDown last others) : r.ShutsDown last (hs ++ others) where
  targets_eq := hthen.targets_eq.trans hfirst.targets_eq
  length_eq := hthen.length_eq.trans hfirst.length_eq
  hasShutDown_iff k := by
    rw [hthen.hasShutDown_iff, hfirst.hasShutDown_iff, hfirst.length_eq, List.mem_append, or_assoc,
      or_and_right]

end ShutsDown

theorem shutDownHandle_of_le {h : Handle} (hle : r.pool.length ≤ h) :
    r.shutDownHandle h now = (r, .ok ()) := by
  rw [shutDownHandle, sampler?, List.getElem?_eq_none hle]

theorem shutsDown_handle : r.ShutsDown (r.shutDownHandle h now).1 [h] := by
  unfold shutDownHandle
  cases hs : r.sampler? h with
  | none =>
    have hle : r.pool.length ≤ h := List.getElem?_eq_none_iff.mp hs
    refine ⟨rfl, rfl, fun k => (or_iff_left ?_).symm⟩
    rintro ⟨hk, hlt⟩
    obtain rfl := List.mem_singleton.mp hk
    exact Nat.not_lt.mpr hle hlt
  | some s =>
    refine ⟨rfl, List.length_set, fun k => ?_⟩
    rw [hasShutDown_set, List.mem_singleton]
    split
    · next hk =>
      rw [hk, hs]
      exact iff_of_true (s.isShutDown_shutDown now) (.inr ⟨rfl, r.lt_of_sampler? hs⟩)
    · next hk => simp [hk]

theorem shutDownHandle_outcome :
    (r.shutDownHandle h now).2 =
      if r.hasShutDown h then .error .alreadyShutDown else .ok () := by
  unfold shutDownHandle hasShutDown
  cases r.sampler? h with
  | none => rfl
  | some s => exact s.shutDown_outcome now

theorem shutsDown_all (hs : List Handle) : r.ShutsDown (shutDownAll now hs r).1 hs := by
  induction hs generalizing r with
  | nil => exact .refl r
  | cons h hs ih => exact (r.shutsDown_handle h now).trans (ih _)

/-- All are shut down in any case, and the outcome is the error if one of them had been before. -/
theorem shutDownAll_outcome {hs : List Handle} (hnodup : hs.Nodup) :
    (shutDownAll now hs r).2 =
      if hs.any r.hasShutDown then .error .alreadyShutDown else .ok () := by
  induction hs generalizing r with
  | nil => rfl
  | cons h hs ih =>
    obtain ⟨hh, hhs⟩ := List.nodup_cons.mp hnodup
    -- The handles that follow are others than the first, and as they were.
    have hrest : hs.any (r.shutDownHandle h now).1.hasShutDown = hs.any r.hasShutDown := by
      refine Bool.eq_iff_iff.mpr ?_
      simp only [List.any_eq_true]
      refine exists_congr fun k => and_congr_right fun hk => ?_
      rw [(r.shutsDown_handle h now).hasShutDown_iff, List.mem_singleton]
      refine or_iff_left ?_
      rintro ⟨rfl, -⟩
      exact hh hk
    have hthen := ih (r.shutDownHandle h now).1 hhs
    rw [hrest] at hthen
    have hfirst := r.shutDownHandle_outcome h now
    unfold shutDownAll
    dsimp only
    rw [hfirst, hthen, List.any_cons]
    cases r.hasShutDown h <;> rfl

/-! ## Operations on targets -/

variable {r h} {target : String}

theorem create_of_present (hpresent : r.get? target = some h) (o : SamplerOptions) :
    r.create target o now = (r, .error (.targetExists target)) := by
  rw [create, hpresent]

theorem create_of_absent (habsent : r.get? target = none) (o : SamplerOptions) :
    r.create target o now =
      ({ pool := r.pool ++ [Sampler.make o now],
         targets := r.targets ++ [(target, r.pool.length)] }, .ok r.pool.length) := by
  rw [create, habsent, Table.put_of_absent habsent]

theorem update_of_absent (habsent : r.get? target = none) (c : Settings) :
    r.update target c now = (r, .error (.targetNotFound target)) := by
  rw [update, habsent]

theorem destroy_of_absent (habsent : r.get? target = none) :
    r.destroy target now = (r, .error (.targetNotFound target)) := by
  rw [destroy, habsent]

theorem destroy_of_present (hpresent : r.get? target = some h) :
    r.destroy target now =
      { r with targets := r.targets.filter (·.1 ≠ target) }.shutDownHandle h now := by
  rw [destroy, hpresent]

/-- New settings shut nothing down. -/
theorem update_of_present (hpresent : r.get? target = some h) (hlt : h < r.pool.length)
    (c : Settings) :
    (r.update target c now).2 = .ok () ∧ r.ShutsDown (r.update target c now).1 [] := by
  obtain ⟨s, hs⟩ := r.exists_sampler hlt
  rw [update, hpresent]
  dsimp only
  rw [hs]
  refine ⟨rfl, rfl, List.length_set, fun k => ?_⟩
  rw [hasShutDown_set]
  split
  · next hk => simp [hk, hasShutDown, hs, s.isShutDown_update now c]
  · simp

end Registry

end TraceSampling
