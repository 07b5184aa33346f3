import TraceSampling.Proofs.Sampler.Renewal

/-!
# An update in two parts

An update overwrites all that a sampler keeps of its settings, and the rotation that is told of it
takes a turn: it renews at once what is past its deadline by the new intervals. The two parts do not
depend on each other, so updates at the same time come to one turn and the last settings.
-/

namespace TraceSampling

/-- All that a sampler keeps of its settings: the snapshot, the buckets, the limit of insertions,
and the intervals for which the rotation waits. -/
structure Regime where
  snapshot : Snapshot
  limiter : RateLimiter
  limit : Nat
  waiting : PerItem Nat

def Settings.regime (c : Settings) (now : Nat) : Regime where
  snapshot := Snapshot.compile c
  limiter := c.sanitize.rateLimit.limiter now
  limit := c.sanitize.workflow.maxInsertionsPerMinute
  waiting := c.sanitize.intervals

/-! ## The rotation -/

namespace Rotation

theorem map_map_eq {α : Type} {f : Rotation → Rotation} {g k : Rotation → α}
    (h : ∀ r, g (f r) = k r) (r : Option Rotation) : (r.map f).map g = r.map k := by
  rw [Option.map_map]
  exact congrArg (r.map ·) (funext h)

variable (r : Rotation) (intervals : PerItem Nat) (now : Nat) (items : List Item)

/-- Waits anew. A rotation that has stopped waits for nothing. -/
def await (r : Rotation) (intervals : PerItem Nat) : Rotation :=
  if r.stopped then r else { r with waiting := intervals }

/-- What a rotation renews if it is told of intervals. -/
def overdue : List Item := if r.stopped then [] else (r.await intervals).dueItems now

/-- The rotation behind the renewal of some items. -/
def turn : Rotation :=
  { r with last := .ofFn fun i => if i ∈ items then now else r.last.get i }

theorem stopped_await : (r.await intervals).stopped = r.stopped := by
  unfold await
  split <;> rfl

theorem last_await : (r.await intervals).last = r.last := by
  unfold await
  split <;> rfl

theorem await_await (others : PerItem Nat) :
    (r.await others).await intervals = r.await intervals := by
  cases h : r.stopped <;> simp [await, h]

theorem turn_await : (r.await intervals).turn now items = (r.turn now items).await intervals := by
  cases h : r.stopped <;> simp [await, turn, h]

theorem turn_nil : r.turn now [] = r := by
  simp [turn, PerItem.ofFn, PerItem.get]

theorem wake_reschedule_eq : r.wake .reschedule intervals = (r.await intervals, []) := by
  cases h : r.stopped with
  | true => rw [wake_of_stopped h, await, if_pos h]
  | false => rw [wake_reschedule h, await, if_neg (ne_true_of_eq_false h)]

theorem mem_overdue_iff (i : Item) :
    i ∈ r.overdue intervals now ↔ r.stopped = false ∧
      r.last.get i + intervals.get i ≤ now ∧ r.last.get i + intervals.get i ≤ clockEnd := by
  unfold overdue
  cases h : r.stopped with
  | true => simp
  | false => simp [await, h, mem_dueItems_iff, due]

/-- What has been renewed is past no deadline at that time. -/
theorem mem_overdue_turn_iff {i : Item} (hpos : 0 < intervals.get i) :
    i ∈ (r.turn now items).overdue intervals now ↔ i ∈ r.overdue intervals now ∧ i ∉ items := by
  have hlast : (r.turn now items).last.get i = if i ∈ items then now else r.last.get i :=
    PerItem.get_ofFn _ i
  have hstopped : (r.turn now items).stopped = r.stopped := rfl
  rw [mem_overdue_iff, mem_overdue_iff, hlast, hstopped]
  by_cases hi : i ∈ items
  · rw [if_pos hi]
    exact iff_of_false (by omega) (fun h => h.2 hi)
  · rw [if_neg hi]
    exact (and_iff_left hi).symm

theorem turn_turn (others : List Item) :
    (r.turn now items).turn now others = r.turn now (items ++ others) := by
  have hlast : ∀ i, (if i ∈ others then now else (r.turn now items).last.get i) =
      if i ∈ items ++ others then now else r.last.get i := by
    intro i
    have hbefore : (r.turn now items).last.get i = if i ∈ items then now else r.last.get i :=
      PerItem.get_ofFn _ i
    rw [hbefore]
    by_cases hi : i ∈ items <;> by_cases ho : i ∈ others <;> simp [hi, ho]
  rw [turn, funext hlast]
  rfl

theorem overdue_await (others : PerItem Nat) :
    (r.await others).overdue intervals now = r.overdue intervals now := by
  rw [overdue, overdue, stopped_await, await_await]

theorem wake_timeout_await :
    (r.await intervals).wake (.timeout now) intervals =
      ((r.turn now (r.overdue intervals now)).await intervals, r.overdue intervals now) := by
  cases h : r.stopped with
  | true =>
    have hitems : r.overdue intervals now = [] := if_pos h
    have hawait : r.await intervals = r := if_pos h
    rw [hitems, turn_nil, hawait, wake_of_stopped h]
  | false =>
    have hnot : ¬ r.stopped = true := ne_true_of_eq_false h
    have hawait : r.await intervals = { r with waiting := intervals } := if_neg hnot
    have hitems : r.overdue intervals now = (r.await intervals).dueItems now := if_neg hnot
    have hlast : ∀ i, (if (r.await intervals).isDue now i then now else r.last.get i) =
        if i ∈ (r.await intervals).dueItems now then now else r.last.get i := fun i => by
      simp only [isDue_iff, mem_dueItems_iff]
    rw [hitems, wake_timeout now ((r.stopped_await intervals).trans h), ← turn_await, turn,
      last_await, ← funext hlast, hawait]

end Rotation

/-! ## The sampler -/

namespace Sampler

variable (s : Sampler) (c : Settings) (now : Nat) (items : List Item) (g : Regime)

/-- What the rotation renews if it is told of settings; a sampler without one renews nothing. -/
def overdue : List Item :=
  (s.rotation.map fun r => r.overdue c.sanitize.intervals now).getD []

/-- The sampler behind a turn of its rotation that renews some items. -/
def turn : Sampler :=
  { s.renewed now items with rotation := s.rotation.map fun r => r.turn now items }

/-- The sampler with other settings in the place of its own. -/
def under : Sampler :=
  { s with
    snapshot := g.snapshot
    resources := { s.resources with limiter := g.limiter }
    edges := s.edges.setLimit g.limit
    rotation := s.rotation.map fun r => r.await g.waiting }

theorem under_under (g' : Regime) : (s.under g).under g' = s.under g' := by
  have hrotation : (s.rotation.map fun r => r.await g.waiting).map (fun r => r.await g'.waiting) =
      s.rotation.map fun r => r.await g'.waiting :=
    Rotation.map_map_eq (fun r => r.await_await _ _) s.rotation
  unfold under
  rw [hrotation]
  rfl

theorem turn_under : (s.under g).turn now items = (s.turn now items).under g := by
  have hrotation : (s.rotation.map fun r => r.await g.waiting).map (fun r => r.turn now items) =
      (s.rotation.map fun r => r.turn now items).map fun r => r.await g.waiting := by
    rw [Rotation.map_map_eq (fun r => r.turn_await _ _ _), Option.map_map]
    rfl
  unfold turn under renewed
  rw [hrotation]
  dsimp only
  split <;> split <;> split <;> rfl

theorem overdue_under : (s.under g).overdue c now = s.overdue c now := by
  have hrotation : (s.rotation.map fun r => r.await g.waiting).map
      (fun r => r.overdue c.sanitize.intervals now) =
        s.rotation.map fun r => r.overdue c.sanitize.intervals now :=
    Rotation.map_map_eq (fun r => r.overdue_await _ _ _) s.rotation
  exact congrArg (·.getD []) hrotation

variable {s c now} in
theorem mem_overdue_iff (i : Item) :
    i ∈ s.overdue c now ↔ ∃ r, s.rotation = some r ∧ i ∈ r.overdue c.sanitize.intervals now := by
  unfold overdue
  cases s.rotation <;> simp

theorem mem_overdue_turn_iff (i : Item) :
    i ∈ (s.turn now items).overdue c now ↔ i ∈ s.overdue c now ∧ i ∉ items := by
  have hturn : (s.turn now items).rotation = s.rotation.map fun r => r.turn now items := rfl
  rw [mem_overdue_iff, mem_overdue_iff, hturn]
  cases s.rotation with
  | none => simp
  | some r => simpa using r.mem_overdue_turn_iff _ now items (c.intervals_sanitize_pos i)

theorem turn_congr {s : Sampler} {items others : List Item} (h : ∀ i, i ∈ items ↔ i ∈ others) :
    s.turn now items = s.turn now others := by
  simp only [turn, renewed, Rotation.turn, h]

/-- Two turns at the same time are one, unless they open a window each. -/
theorem turn_turn {items others : List Item} (h : ∀ i ∈ items, i ∉ others) :
    (s.turn now items).turn now others = s.turn now (items ++ others) := by
  have hrotation : (s.rotation.map fun r => r.turn now items).map (fun r => r.turn now others) =
      s.rotation.map fun r => r.turn now (items ++ others) :=
    Rotation.map_map_eq (fun r => r.turn_turn _ _ _) s.rotation
  have hwindows : (if .window ∈ others then
      (if .window ∈ items then s.resources.windows.rotate now else s.resources.windows).rotate now
      else if .window ∈ items then s.resources.windows.rotate now else s.resources.windows) =
        if .window ∈ items ++ others then s.resources.windows.rotate now
        else s.resources.windows := by
    by_cases hw : .window ∈ items
    · simp [hw, h _ hw]
    · simp [hw]
  unfold turn renewed
  rw [hrotation]
  dsimp only
  rw [hwindows]
  by_cases hc : .cache ∈ items <;> by_cases hc' : .cache ∈ others <;>
    by_cases hb : .budget ∈ items <;> by_cases hb' : .budget ∈ others <;>
    simp only [hc, hc', hb, hb', List.mem_append, or_true, or_false, if_true, if_false] <;> rfl

theorem renewed_nil : s.renewed now [] = s := by
  simp [renewed]

theorem catchUp_eq {s : Sampler} {r : Rotation}
    (h : s.rotation = some (r.await s.snapshot.settings.intervals)) :
    let items := r.overdue s.snapshot.settings.intervals now
    s.catchUp now =
      { s.renewed now items with
        rotation := some ((r.turn now items).await s.snapshot.settings.intervals) } := by
  intro items
  unfold catchUp
  split
  · rw [wake_eq now h, renewals_eq h, Rotation.wake_timeout_await]
  · next hidle =>
    have hitems : items = [] := by
      unfold items Rotation.overdue
      simpa [h, Rotation.stopped_await] using hidle
    rw [hitems, Rotation.turn_nil, renewed_nil, ← h]

/-- To put settings in force and tell the rotation is to overwrite what the sampler keeps. -/
theorem wake_publish :
    (s.publish c now).wake .reschedule now = s.under (c.regime now) := by
  cases h : s.rotation with
  | none =>
    have hnone : (s.publish c now).rotation = none := h
    rw [wake, hnone]
    unfold publish under
    rw [h]
    rfl
  | some r =>
    have hsome : (s.publish c now).rotation = some r := h
    rw [wake_eq now hsome, renewals_eq hsome, Rotation.wake_reschedule_eq, renewed_nil, under, h]
    rfl

/-- To catch up is to take a turn, with nothing to do if nothing is overdue. -/
theorem catchUp_under :
    (s.under (c.regime now)).catchUp now = (s.under (c.regime now)).turn now (s.overdue c now) := by
  cases h : s.rotation with
  | none =>
    have hnone : (s.under (c.regime now)).rotation = none := by rw [under, h]; rfl
    have hitems : s.overdue c now = [] := by rw [overdue, h]; rfl
    rw [catchUp, hitems, turn, hnone, renewed_nil]
    exact congrArg (fun r => { s.under (c.regime now) with rotation := r }) hnone
  | some r =>
    have hsome : (s.under (c.regime now)).rotation = some (r.await c.sanitize.intervals) := by
      rw [under, h]; rfl
    have hitems : s.overdue c now = r.overdue c.sanitize.intervals now := by rw [overdue, h]; rfl
    rw [catchUp_eq now hsome, turn, hsome, hitems, Option.map_some, Rotation.turn_await]
    rfl

/-- New settings overwrite the old ones, and the rotation takes a turn by their intervals. -/
theorem update_eq : s.update c now = (s.turn now (s.overdue c now)).under (c.regime now) := by
  rw [update, wake_publish, catchUp_under, turn_under]

/-- Behind two updates at the same time all is renewed that either has found past its deadline. -/
theorem update_update (c₁ c₂ : Settings) :
    (s.update c₁ now).update c₂ now =
      (s.turn now (s.overdue c₁ now ++ s.overdue c₂ now)).under (c₂.regime now) := by
  have hapart : ∀ i ∈ s.overdue c₁ now, i ∉ (s.turn now (s.overdue c₁ now)).overdue c₂ now :=
    fun i hi hagain => ((s.mem_overdue_turn_iff c₂ now _ i).mp hagain).2 hi
  have hsame : ∀ i, i ∈ s.overdue c₁ now ++ (s.turn now (s.overdue c₁ now)).overdue c₂ now ↔
      i ∈ s.overdue c₁ now ++ s.overdue c₂ now := by
    intro i
    rw [List.mem_append, List.mem_append, mem_overdue_turn_iff]
    by_cases hi : i ∈ s.overdue c₁ now <;> simp [hi]
  rw [update_eq, update_eq, overdue_under, turn_under, under_under, turn_turn _ _ hapart,
    turn_congr _ hsame]

end Sampler

end TraceSampling
