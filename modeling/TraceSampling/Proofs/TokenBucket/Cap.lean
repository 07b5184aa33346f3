import TraceSampling.Proofs.TokenBucket.Run

/-!
# The cap on granted tokens

Every granted token moves the clock on by its period, and the clock does not pass the present. So a
bucket grants no more than its burst and what its age has produced, for as long as its capacity and
its age add up to less than the largest word. At the largest word there is no cap at all.
-/

namespace TraceSampling.TokenBucket

variable {rate burst tick start : Nat}

/-- The clock keeps the account of all that was granted. -/
theorem clock_add_granted_le {age : Nat} (hfit : capacity rate burst tick + age < maxWord)
    {calls : List Call} (hage : ∀ c ∈ calls, c.time ≤ start + age) (last : Nat) :
    last + period rate tick * (clocked rate burst tick start last).granted calls ≤
      max last (age + capacity rate burst tick) := by
  induction calls generalizing last with
  | nil => exact Nat.le_max_left last _
  | cons c calls ih =>
    have hc : c.time ≤ start + age := hage c (by simp)
    have hcalls : ∀ d ∈ calls, d.time ≤ start + age := fun d hd => hage d (by simp [hd])
    have hnow : capacity rate burst tick + (c.time - start) < maxWord := by omega
    rw [granted, serve_clocked_of_lt last hnow]
    simp only
    split
    · next hle =>
      have htail := ih hcalls (max last (c.time - start) + c.tokens.toNat * period rate tick)
      simp only [if_true, Nat.mul_add, Nat.mul_comm (period rate tick) c.tokens.toNat]
      omega
    · simpa using ih hcalls last

theorem granted_le {age : Nat} (hr : 0 < rate) (hfit : capacity rate burst tick + age < maxWord)
    {calls : List Call} (hage : ∀ c ∈ calls, c.time ≤ start + age) :
    (make rate burst tick start).granted calls ≤ max burst 1 + age / period rate tick := by
  have hclock := clock_add_granted_le hfit hage 0
  rw [← make_eq_clocked hr, Nat.zero_add, Nat.zero_max, capacity, Nat.mul_comm] at hclock
  calc
    (make rate burst tick start).granted calls
      ≤ (age + period rate tick * max burst 1) / period rate tick :=
        (Nat.le_div_iff_mul_le (period_pos rate tick)).mpr hclock
    _ = max burst 1 + age / period rate tick := by
        rw [Nat.add_mul_div_left _ _ (period_pos rate tick), Nat.add_comm]

theorem granted_replicate {age : Nat} (hfull : maxWord ≤ capacity rate burst tick + age)
    (last k : Nat) :
    (clocked rate burst tick start last).granted (List.replicate k ⟨1, start + age⟩) = k := by
  induction k generalizing last with
  | zero => rfl
  | succ k ih =>
    have hnow : maxWord ≤ capacity rate burst tick + ((⟨1, start + age⟩ : Call).time - start) := by
      simpa using hfull
    obtain ⟨next, hserve⟩ := serve_clocked_of_le last hnow
    rw [List.replicate_succ, granted, hserve]
    simp only [if_true, ih next]
    exact Nat.add_comm 1 k

/-- The cap holds for all runs up to an age exactly if the capacity and the age fit a word. -/
theorem granted_le_iff (rate burst tick start age : Nat) (hr : 0 < rate) :
    (∀ calls, InOrder start calls → (∀ c ∈ calls, c.time ≤ start + age) →
      (make rate burst tick start).granted calls ≤ max burst 1 + age / period rate tick) ↔
      capacity rate burst tick + age < maxWord := by
  refine ⟨fun hcap => ?_, fun hfit calls _ hage => granted_le hr hfit hage⟩
  rcases Nat.lt_or_ge (capacity rate burst tick + age) maxWord with hfit | hfull
  · exact hfit
  · -- One single token more than the cap, all of them asked for at that age.
    let k := max burst 1 + age / period rate tick + 1
    have hall : (clocked rate burst tick start 0).granted (List.replicate k ⟨1, start + age⟩) = k :=
      granted_replicate hfull 0 k
    have hle := hcap (List.replicate k ⟨1, start + age⟩) (by simp [InOrder, List.pairwise_replicate])
      (by simp)
    rw [make_eq_clocked hr, hall] at hle
    omega

/-- Two tokens to a second and a burst of four come to no more than 124 tokens in a minute. -/
theorem granted_le_in_a_minute : 0 < 2 ∧ capacity 2 4 1000000000 + 60000000000 < maxWord ∧
    ∀ calls, InOrder 0 calls → (∀ c ∈ calls, c.time ≤ 0 + 60000000000) →
      (make 2 4 1000000000 0).granted calls ≤ 124 :=
  ⟨by decide, by decide, (granted_le_iff 2 4 1000000000 0 60000000000 (by decide)).mpr (by decide)⟩

/-- One token to a day and a burst of 250000 fill no word: the burst is granted twice at once. -/
theorem granted_twice_the_burst :
    InOrder 0 [⟨250000, 0⟩, ⟨250000, 0⟩] ∧
      (make 1 250000 86400000000000 0).granted [⟨250000, 0⟩, ⟨250000, 0⟩] = 500000 ∧
      max 250000 1 + 0 / period 1 86400000000000 = 250000 := by
  decide

end TraceSampling.TokenBucket
