import TraceSampling.Proofs.TokenBucket.Alike

/-!
# Refilling

The clock of a bucket is never more than a capacity ahead of its age, whatever was granted before. A
tick without calls moves the age on by a whole tick, and a period is the tick divided by the rate and
rounded down: at the end of the tick there is room for as many tokens as the rate says, up to a burst.
-/

namespace TraceSampling.TokenBucket

/-- The bucket behind calls. -/
def after (b : TokenBucket) (calls : List Call) : TokenBucket :=
  calls.foldl (fun b c => (b.serve c).1) b

variable {rate burst tick start : Nat}

/-- A period that is rounded down leaves a tick long enough for all its tokens. -/
theorem rate_mul_period_le (h : rate ≤ tick) : rate * period rate tick ≤ tick := by
  have hdiv : rate * (capped tick / rate) ≤ capped tick := Nat.mul_div_le (capped tick) rate
  have hcap : capped tick ≤ tick := Nat.min_le_left tick maxWord
  unfold period
  rcases Nat.le_total 1 (capped tick / rate) with hone | hnone
  · rw [Nat.max_eq_right hone]
    omega
  · rw [Nat.max_eq_left hnone]
    omega

/-! ## Behind any calls -/

section Behind

variable {age : Nat} (hfit : capacity rate burst tick + age < maxWord)
include hfit

theorem serve_clocked_ahead {last : Nat} (hlast : last ≤ age + capacity rate burst tick) {c : Call}
    (hc : c.time ≤ start + age) :
    ∃ next, ((clocked rate burst tick start last).serve c).1 = clocked rate burst tick start next ∧
      next ≤ age + capacity rate burst tick := by
  rw [serve_clocked_of_lt last (by omega)]
  simp only
  split
  · next hle => exact ⟨_, rfl, by omega⟩
  · exact ⟨last, rfl, hlast⟩

/-- No calls up to an age bring the clock further ahead of it than a capacity. -/
theorem after_clocked {calls : List Call} (hcalls : ∀ c ∈ calls, c.time ≤ start + age) {last : Nat}
    (hlast : last ≤ age + capacity rate burst tick) :
    ∃ next, (clocked rate burst tick start last).after calls = clocked rate burst tick start next ∧
      next ≤ age + capacity rate burst tick := by
  induction calls generalizing last with
  | nil => exact ⟨last, rfl, hlast⟩
  | cons c calls ih =>
    obtain ⟨next, hserve, hnext⟩ := serve_clocked_ahead hfit hlast (hcalls c List.mem_cons_self)
    obtain ⟨final, hafter, hfinal⟩ := ih (fun d hd => hcalls d (List.mem_cons_of_mem c hd)) hnext
    refine ⟨final, ?_, hfinal⟩
    rw [← hafter, after, List.foldl_cons, hserve]
    rfl

end Behind

/-! ## Single tokens -/

/-- As long as there is room for some tokens, that many are granted, at once or one by one. -/
theorem respond_of_room {times : List Nat} {last present : Nat}
    (horder : (present :: times).Pairwise (· ≤ ·)) (hstart : start ≤ present)
    (hfit : ∀ time ∈ times, capacity rate burst tick + (time - start) < maxWord)
    (hburst : times.length * period rate tick ≤ capacity rate burst tick)
    (hroom : last + times.length * period rate tick ≤
      present - start + capacity rate burst tick) :
    respond ask (clocked rate burst tick start last) times =
      List.replicate times.length true := by
  induction times generalizing last present with
  | nil => rfl
  | cons time times ih =>
    obtain ⟨hpresent, hrest⟩ := List.pairwise_cons.mp horder
    have htime : present ≤ time := hpresent time List.mem_cons_self
    rw [List.length_cons, Nat.add_one_mul] at hburst hroom
    -- The age goes on from token to token, and the room that is left goes with it.
    have hask : (clocked rate burst tick start last).ask time =
        (clocked rate burst tick start (max last (time - start) + period rate tick), true) := by
      rw [ask_clocked last (hfit time List.mem_cons_self), if_pos (by omega)]
    have hroom' : max last (time - start) + period rate tick + times.length * period rate tick ≤
        time - start + capacity rate burst tick := by omega
    have htail := ih hrest (by omega) (fun t ht => hfit t (List.mem_cons_of_mem time ht))
      (by omega) hroom'
    rw [respond, hask, htail, List.length_cons, List.replicate_succ]

/-- Tokens at one instant, with the clock that they leave. -/
theorem respond_at_once {now : Nat} (hfit : capacity rate burst tick + (now - start) < maxWord)
    {k last : Nat}
    (hroom : max last (now - start) + k * period rate tick ≤
      now - start + capacity rate burst tick) :
    ∃ next, max next (now - start) = max last (now - start) + k * period rate tick ∧
      ∀ times, respond ask (clocked rate burst tick start last) (List.replicate k now ++ times) =
        List.replicate k true ++ respond ask (clocked rate burst tick start next) times := by
  induction k generalizing last with
  | zero => exact ⟨last, by omega, fun times => rfl⟩
  | succ k ih =>
    rw [Nat.add_one_mul] at hroom ⊢
    have hask : (clocked rate burst tick start last).ask now =
        (clocked rate burst tick start (max last (now - start) + period rate tick), true) := by
      rw [ask_clocked last hfit, if_pos (by omega)]
    have hroom' : max (max last (now - start) + period rate tick) (now - start) +
        k * period rate tick ≤ now - start + capacity rate burst tick := by omega
    obtain ⟨next, hnext, hrespond⟩ := ih hroom'
    refine ⟨next, by omega, fun times => ?_⟩
    rw [List.replicate_succ, List.cons_append, respond, hask, hrespond]
    rfl

/-- A burst at one instant leaves nothing for that instant. -/
theorem respond_burst_once {now : Nat}
    (hfit : capacity rate burst tick + (now - start) < maxWord) :
    respond ask (clocked rate burst tick start 0) (List.replicate (max burst 1) now ++ [now]) =
      List.replicate (max burst 1) true ++ [false] := by
  have hburst : max burst 1 * period rate tick = capacity rate burst tick := Nat.mul_comm _ _
  have hpos : 0 < period rate tick := period_pos rate tick
  have hroom : max 0 (now - start) + max burst 1 * period rate tick ≤
      now - start + capacity rate burst tick := by omega
  obtain ⟨next, hnext, hrespond⟩ := respond_at_once hfit hroom
  rw [hrespond, respond, ask_clocked next hfit, if_neg (by omega)]
  rfl

/-- After any calls and a tick without one, as many single tokens are granted as the rate or the burst
says, at the end of the tick or later. A bucket that was never called grants a burst at one instant,
and not one token more. -/
theorem respond_idle_tick (rate burst tick start : Nat) (hrate : 1 ≤ rate) (htick : rate ≤ tick) :
    (∀ calls idle times, start ≤ idle → (∀ c ∈ calls, c.time ≤ idle) →
      ((idle + tick) :: times).Pairwise (· ≤ ·) → times.length = min rate (max burst 1) →
      (∀ time ∈ times, capacity rate burst tick + (time - start) < maxWord) →
      respond ask ((make rate burst tick start).after calls) times =
        List.replicate (min rate (max burst 1)) true) ∧
    ∀ now, capacity rate burst tick + (now - start) < maxWord →
      respond ask (make rate burst tick start) (List.replicate (max burst 1) now ++ [now]) =
        List.replicate (max burst 1) true ++ [false] := by
  rw [make_eq_clocked hrate]
  refine ⟨fun calls idle times hidle hcalls horder hlength hfit => ?_,
    fun now => respond_burst_once⟩
  have hpos : times ≠ [] := by
    rintro rfl
    simp at hlength
    omega
  obtain ⟨time, htime⟩ := List.exists_mem_of_ne_nil times hpos
  have hage : idle + tick ≤ time := (List.pairwise_cons.mp horder).1 time htime
  have hbound : capacity rate burst tick + (idle - start) < maxWord := by
    have hlast := hfit time htime
    omega
  have hbehind : ∀ c ∈ calls, c.time ≤ start + (idle - start) := by
    intro c hc
    have hle := hcalls c hc
    omega
  obtain ⟨last, hafter, hlast⟩ := after_clocked hbound hbehind (Nat.zero_le _)
  have hburst : times.length * period rate tick ≤ capacity rate burst tick := by
    rw [hlength, capacity, Nat.mul_comm (period rate tick)]
    exact Nat.mul_le_mul_right _ (Nat.min_le_right _ _)
  have hrefill : times.length * period rate tick ≤ tick := by
    rw [hlength]
    exact Nat.le_trans (Nat.mul_le_mul_right _ (Nat.min_le_left _ _)) (rate_mul_period_le htick)
  rw [hafter, respond_of_room horder (by omega) hfit hburst (by omega), hlength]

/-- Three tokens to a second and a burst of two: what was granted last leaves the clock far ahead. -/
def greedyCalls : List Call := [⟨2, 7⟩, ⟨1, 333333340⟩, ⟨5, 400000000⟩, ⟨1, 666666673⟩]

theorem respond_greedyCalls :
    1 ≤ 3 ∧ 3 ≤ 1000000000 ∧ 7 ≤ 700000000 ∧ (∀ c ∈ greedyCalls, c.time ≤ 700000000) ∧
      [700000000 + 1000000000, 1700000000, 1700000001].Pairwise (· ≤ ·) ∧
      [1700000000, 1700000001].length = min 3 (max 2 1) ∧
      (∀ time ∈ [1700000000, 1700000001], capacity 3 2 1000000000 + (time - 7) < maxWord) ∧
      respond ask ((make 3 2 1000000000 7).after greedyCalls) [700000000] = [false] ∧
      respond ask ((make 3 2 1000000000 7).after greedyCalls) [1700000000, 1700000001] =
        [true, true] ∧
      capacity 3 2 1000000000 + (700000000 - 7) < maxWord ∧
      respond ask (make 3 2 1000000000 7) (List.replicate 2 700000000 ++ [700000000]) =
        [true, true, false] :=
  ⟨by decide, by decide, by decide, by decide, by decide, by decide, by decide, by decide,
    (respond_idle_tick 3 2 1000000000 7 (by decide) (by decide)).1 greedyCalls 700000000
      [1700000000, 1700000001] (by decide) (by decide) (by decide) (by decide) (by decide),
    by decide,
    (respond_idle_tick 3 2 1000000000 7 (by decide) (by decide)).2 700000000 (by decide)⟩

end TraceSampling.TokenBucket
