import TraceSampling.Proofs.TokenBucket.Run
import TraceSampling.Settings.Basic

/-!
# Buckets that answer alike

Two buckets are alike if no run of single tokens tells them apart. For buckets that were made with
the same tick two runs are enough: tokens at once show the burst, and after a burst two tokens at the
time the faster bucket has produced one show the period. Beyond the largest word there is nothing to
see, as every token is granted there.
-/

namespace TraceSampling.TokenBucket

/-- A single token. -/
def ask (b : TokenBucket) (time : Nat) : TokenBucket × Bool := b.consume 1 time

/-- No single tokens from a time on tell the buckets apart. -/
def Alike (start : Nat) (b b' : TokenBucket) : Prop :=
  ∀ times, (start :: times).Pairwise (· ≤ ·) → respond ask b times = respond ask b' times

namespace Alike

variable {start time : Nat} {b b' : TokenBucket}

theorem refl (start : Nat) (b : TokenBucket) : Alike start b b := fun _ _ => rfl

theorem symm (h : Alike start b b') : Alike start b' b := fun times horder => (h times horder).symm

theorem later (h : Alike start b b') (htime : start ≤ time) : Alike time b b' := by
  intro times horder
  obtain ⟨hfirst, hrest⟩ := List.pairwise_cons.mp horder
  exact h times (List.pairwise_cons.mpr ⟨fun t ht => Nat.le_trans htime (hfirst t ht), hrest⟩)

theorem step (h : Alike start b b') (htime : start ≤ time) :
    (b.ask time).2 = (b'.ask time).2 ∧ Alike time (b.ask time).1 (b'.ask time).1 := by
  -- A run behind the token is a run that begins with it.
  have hrun : ∀ times, (time :: times).Pairwise (· ≤ ·) →
      (b.ask time).2 = (b'.ask time).2 ∧
        respond ask (b.ask time).1 times = respond ask (b'.ask time).1 times := by
    intro times horder
    exact List.cons_eq_cons.mp ((h.later htime) (time :: times)
      (List.pairwise_cons.mpr ⟨by simpa using (List.pairwise_cons.mp horder).1, horder⟩))
  exact ⟨(hrun [] (List.pairwise_singleton _ time)).1, fun times horder => (hrun times horder).2⟩

end Alike

/-! ## What single tokens do -/

variable {rate burst tick start : Nat}

theorem respond_of_denyAll {b : TokenBucket} (h : b.denyAll = true) (times : List Nat) :
    respond ask b times = List.replicate times.length false := by
  have hask : ∀ time, b.ask time = (b, false) := fun time => by rw [ask, consume, if_pos h]
  induction times with
  | nil => rfl
  | cons time times ih => rw [respond, hask, ih, List.length_cons, List.replicate_succ]

/-- From the largest word on every token is granted. -/
theorem respond_of_full {times : List Nat}
    (hfull : ∀ time ∈ times, maxWord ≤ capacity rate burst tick + (time - start)) (last : Nat) :
    respond ask (clocked rate burst tick start last) times =
      List.replicate times.length true := by
  induction times generalizing last with
  | nil => rfl
  | cons time times ih =>
    obtain ⟨next, hserve⟩ :=
      serve_clocked_of_le (c := ⟨1, time⟩) last (hfull time List.mem_cons_self)
    have hask : (clocked rate burst tick start last).ask time =
      (clocked rate burst tick start next, true) := hserve
    rw [respond, hask, List.length_cons, List.replicate_succ]
    exact congrArg (true :: ·) (ih (fun t ht => hfull t (List.mem_cons_of_mem time ht)) next)

variable {time : Nat}

theorem ask_clocked (last : Nat) (hfit : capacity rate burst tick + (time - start) < maxWord) :
    (clocked rate burst tick start last).ask time =
      if max last (time - start) + period rate tick ≤ time - start + capacity rate burst tick then
        (clocked rate burst tick start (max last (time - start) + period rate tick), true)
      else (clocked rate burst tick start last, false) := by
  have hserve := serve_clocked_of_lt (c := ⟨1, time⟩) last hfit
  have hone : (1 : UInt64).toNat * period rate tick = period rate tick := Nat.one_mul _
  rwa [hone] at hserve

theorem respond_at_start (hfit : capacity rate burst tick < maxWord) {k last : Nat}
    (hk : last + k * period rate tick ≤ capacity rate burst tick) (times : List Nat) :
    respond ask (clocked rate burst tick start last) (List.replicate k start ++ times) =
      List.replicate k true ++
        respond ask (clocked rate burst tick start (last + k * period rate tick)) times := by
  induction k generalizing last with
  | zero => simp
  | succ k ih =>
    rw [Nat.add_one_mul] at hk ⊢
    have hask : (clocked rate burst tick start last).ask start =
        (clocked rate burst tick start (last + period rate tick), true) := by
      rw [ask_clocked _ (by omega), if_pos (by omega), Nat.sub_self,
        Nat.max_eq_left (Nat.zero_le last)]
    rw [List.replicate_succ, List.cons_append, respond, hask, ih (by omega)]
    simp only [List.replicate_succ, List.cons_append]
    rw [Nat.add_assoc last, Nat.add_comm (period rate tick)]

/-- A burst at once leaves the clock a capacity ahead. -/
theorem respond_burst (hfit : capacity rate burst tick < maxWord) (times : List Nat) :
    respond ask (clocked rate burst tick start 0) (List.replicate (max burst 1) start ++ times) =
      List.replicate (max burst 1) true ++
        respond ask (clocked rate burst tick start (capacity rate burst tick)) times := by
  have hcapacity : 0 + max burst 1 * period rate tick = capacity rate burst tick := by
    rw [Nat.zero_add, Nat.mul_comm, capacity]
  rw [respond_at_start hfit (Nat.le_of_eq hcapacity), hcapacity]

theorem period_le_capacity (rate burst tick : Nat) :
    period rate tick ≤ capacity rate burst tick :=
  Nat.le_mul_of_pos_right _ (by omega)

/-- A drained bucket gives one token when a period has passed. -/
theorem respond_drained (hfit : capacity rate burst tick + (time - start) < maxWord)
    (hage : time - start ≤ period rate tick) :
    respond ask (clocked rate burst tick start (capacity rate burst tick)) [time, time] =
      [decide (period rate tick ≤ time - start), false] := by
  have hpos : 0 < period rate tick := period_pos rate tick
  have hburst : period rate tick ≤ capacity rate burst tick := period_le_capacity rate burst tick
  simp only [respond]
  by_cases hle : period rate tick ≤ time - start
  · rw [ask_clocked _ hfit, if_pos (by omega), ask_clocked _ hfit, if_neg (by omega),
      decide_eq_true hle]
  · have hask := ask_clocked (capacity rate burst tick) hfit
    rw [if_neg (by omega)] at hask
    rw [hask, hask, decide_eq_false hle]

/-- The token after a burst at once is refused. -/
theorem respond_past_burst (hfit : capacity rate burst tick < maxWord) (times : List Nat) :
    respond ask (clocked rate burst tick start 0)
        (List.replicate (max burst 1) start ++ start :: times) =
      List.replicate (max burst 1) true ++ false ::
        respond ask (clocked rate burst tick start (capacity rate burst tick)) times := by
  have hpos : 0 < period rate tick := period_pos rate tick
  rw [respond_burst hfit, respond, ask_clocked _ (by omega), if_neg (by omega)]

/-! ## What a run shows -/

/-- Tokens at once show the burst. -/
theorem respond_replicate_iff (rate burst tick start k : Nat) :
    respond ask (clocked rate burst tick start 0) (List.replicate k start) =
      List.replicate k true ↔ maxWord ≤ capacity rate burst tick ∨ k ≤ max burst 1 := by
  rcases Nat.lt_or_ge (capacity rate burst tick) maxWord with hfit | hfull
  · rw [or_iff_right (by omega)]
    constructor
    · intro hall
      refine Nat.le_of_not_lt fun hk => ?_
      have hsplit : List.replicate k start = List.replicate (max burst 1) start ++
          start :: List.replicate (k - (max burst 1 + 1)) start := by
        rw [← List.replicate_succ, List.replicate_append_replicate]
        congr 1
        omega
      rw [hsplit, respond_past_burst hfit] at hall
      have hrefused : false ∈ List.replicate k true := by
        rw [← hall]
        simp
      exact Bool.false_ne_true (List.eq_of_mem_replicate hrefused)
    · intro hk
      have hcapacity : 0 + k * period rate tick ≤ capacity rate burst tick := by
        rw [Nat.zero_add, Nat.mul_comm]
        exact Nat.mul_le_mul_left _ hk
      simpa [respond] using respond_at_start hfit hcapacity []
  · refine iff_of_true ?_ (.inl hfull)
    rw [respond_of_full (fun _ _ => Nat.le_add_right_of_le hfull), List.length_replicate]

variable {rate' burst' : Nat}

/-- The faster of two drained buckets is seen to be faster. -/
theorem Alike.period_le
    (h : Alike start (clocked rate burst tick start 0) (clocked rate' burst' tick start 0))
    (hburst : max burst 1 = max burst' 1) (hfit' : capacity rate' burst' tick < maxWord) :
    period rate' tick ≤ period rate tick := by
  refine Nat.le_of_not_lt fun hlt => ?_
  have hcapacity : capacity rate burst tick < capacity rate' burst' tick := by
    rw [capacity, capacity, hburst]
    exact Nat.mul_lt_mul_of_pos_right (by omega) (by omega)
  -- The slower bucket is beyond the largest word, or has to wait longer.
  let age := min (period rate tick) (maxWord - capacity rate' burst' tick)
  have hdrained : respond ask (clocked rate burst tick start (capacity rate burst tick))
        [start + age, start + age] = [decide (period rate tick ≤ start + age - start), false] :=
    respond_drained (by omega) (by omega)
  have htail : respond ask (clocked rate burst tick start (capacity rate burst tick))
        [start + age, start + age] =
      respond ask (clocked rate' burst' tick start (capacity rate' burst' tick))
        [start + age, start + age] := by
    have hrun := h (List.replicate (max burst 1) start ++ [start + age, start + age]) (by
      simp [List.pairwise_append, List.pairwise_replicate, List.mem_replicate])
    rw [respond_burst (by omega), hburst, respond_burst hfit'] at hrun
    exact List.append_cancel_left hrun
  rcases Nat.lt_or_ge (capacity rate' burst' tick + age) maxWord with hfit | hfull
  · have hage : age = period rate tick := by omega
    rw [hdrained, respond_drained (by omega) (by omega)] at htail
    simp [hage] at htail
    omega
  · rw [hdrained, respond_of_full (by simp; omega)] at htail
    simp at htail

/-- Two buckets that deny nothing are alike exactly if neither of them is limited, or both in the
same way. -/
theorem alike_clocked_iff (rate burst rate' burst' tick start : Nat) :
    Alike start (clocked rate burst tick start 0) (clocked rate' burst' tick start 0) ↔
      maxWord ≤ capacity rate burst tick ∧ maxWord ≤ capacity rate' burst' tick ∨
        period rate tick = period rate' tick ∧ max burst 1 = max burst' 1 := by
  constructor
  · intro h
    have hatOnce (k : Nat) : maxWord ≤ capacity rate burst tick ∨ k ≤ max burst 1 ↔
        maxWord ≤ capacity rate' burst' tick ∨ k ≤ max burst' 1 := by
      rw [← respond_replicate_iff rate burst tick start,
        ← respond_replicate_iff rate' burst' tick start,
        h (List.replicate k start) (by simp [List.pairwise_replicate, List.mem_replicate])]
    have hone := hatOnce (max burst 1 + 1)
    have hother := hatOnce (max burst' 1 + 1)
    by_cases hfull : maxWord ≤ capacity rate burst tick
    · exact .inl (by omega)
    · have hburst : max burst 1 = max burst' 1 := by omega
      exact .inr ⟨Nat.le_antisymm (h.symm.period_le hburst.symm (by omega))
        (h.period_le hburst (by omega)), hburst⟩
  · rintro (⟨hfull, hfull'⟩ | ⟨hperiod, hburst⟩)
    · intro times _
      rw [respond_of_full (fun _ _ => Nat.le_add_right_of_le hfull),
        respond_of_full (fun _ _ => Nat.le_add_right_of_le hfull')]
    · have hsame : clocked rate burst tick start 0 = clocked rate' burst' tick start 0 := by
        simp only [clocked, capacity, hperiod, hburst]
      rw [hsame]
      exact Alike.refl start _

/-- The first token tells a bucket that denies all from one that does not. -/
theorem not_alike_of_denyAll {b : TokenBucket} (h : b.denyAll = true)
    (rate burst tick start : Nat) : ¬ Alike start b (clocked rate burst tick start 0) := by
  intro halike
  have hdenied := respond_of_denyAll h [start]
  have hgranted := (respond_replicate_iff rate burst tick start 1).mpr (.inr (by omega))
  rw [halike [start] (by simp)] at hdenied
  exact Bool.false_ne_true (List.cons_eq_cons.mp (hdenied.symm.trans hgranted)).1

/-! ## Budgets -/

theorem denyAll_make {rate : Nat} (h : rate = 0) (burst tick start : Nat) :
    (make rate burst tick start).denyAll = true := by
  simp [make, h]

/-- A bucket of some settings is full: of the tokens that are asked for at once it grants a whole
burst and no more. It grants any number of them if nothing limits it, and none if its rate is
zero. -/
def Full (b : TokenBucket) (s : BucketSettings) (tick now : Nat) : Prop :=
  ∀ k, respond ask b (List.replicate k now) = List.replicate k true ↔
    k = 0 ∨ s.rate ≠ 0 ∧ (maxWord ≤ capacity s.rate s.burst tick ∨ k ≤ max s.burst 1)

theorem full_make (s : BucketSettings) (tick now : Nat) :
    (make s.rate s.burst tick now).Full s tick now := by
  intro k
  by_cases hrate : s.rate = 0
  · rw [respond_of_denyAll (denyAll_make hrate _ _ _), List.length_replicate]
    simp [hrate]
  · rw [make_eq_clocked (Nat.pos_of_ne_zero hrate), respond_replicate_iff, and_iff_right hrate]
    omega

/-- Whether two buckets of one tick grant the same: nothing, everything, or with the same burst and
the same period. -/
def SameBudget (tick : Nat) (s s' : BucketSettings) : Prop :=
  s.rate = 0 ∧ s'.rate = 0 ∨
    s.rate ≠ 0 ∧ s'.rate ≠ 0 ∧
      (maxWord ≤ capacity s.rate s.burst tick ∧ maxWord ≤ capacity s'.rate s'.burst tick ∨
        period s.rate tick = period s'.rate tick ∧ max s.burst 1 = max s'.burst 1)

instance (tick : Nat) (s s' : BucketSettings) : Decidable (SameBudget tick s s') :=
  inferInstanceAs (Decidable (_ ∨ _))

/-- Two buckets of one tick are alike exactly if they have the same budget. -/
theorem alike_make_iff (s s' : BucketSettings) (tick start : Nat) :
    Alike start (make s.rate s.burst tick start) (make s'.rate s'.burst tick start) ↔
      SameBudget tick s s' := by
  unfold SameBudget
  by_cases hrate : s.rate = 0 <;> by_cases hrate' : s'.rate = 0
  · refine iff_of_true (fun times _ => ?_) (.inl ⟨hrate, hrate'⟩)
    rw [respond_of_denyAll (denyAll_make hrate _ _ _),
      respond_of_denyAll (denyAll_make hrate' _ _ _)]
  · rw [make_eq_clocked (Nat.pos_of_ne_zero hrate')]
    exact iff_of_false (not_alike_of_denyAll (denyAll_make hrate _ _ _) _ _ _ _) (by omega)
  · rw [make_eq_clocked (Nat.pos_of_ne_zero hrate)]
    exact iff_of_false
      (fun h => not_alike_of_denyAll (denyAll_make hrate' _ _ _) _ _ _ _ h.symm) (by omega)
  · rw [make_eq_clocked (Nat.pos_of_ne_zero hrate), make_eq_clocked (Nat.pos_of_ne_zero hrate'),
      alike_clocked_iff]
    simp [hrate, hrate']

end TraceSampling.TokenBucket
