import TraceSampling.TokenBucket

/-!
# Runs of a token bucket

Calls reach a bucket one after the other. As long as the capacity of the bucket and its age add up
to less than the largest word, no sum is cut and exact numbers decide about a call. From then on
the shifted present is the largest word itself, which no cut sum passes, and every call is granted.
-/

namespace TraceSampling

structure Call where
  tokens : UInt64
  time : Nat
  deriving DecidableEq, Repr

/-- Calls that come after a time and one after the other. -/
def InOrder (start : Nat) (calls : List Call) : Prop :=
  (start :: calls.map (·.time)).Pairwise (· ≤ ·)

instance (start : Nat) (calls : List Call) : Decidable (InOrder start calls) :=
  inferInstanceAs (Decidable (List.Pairwise _ _))

theorem InOrder.cons {start : Nat} {c : Call} {calls : List Call}
    (h : InOrder start (c :: calls)) : start ≤ c.time ∧ InOrder c.time calls := by
  obtain ⟨hstart, hcalls⟩ := List.pairwise_cons.mp h
  exact ⟨hstart c.time (by simp), hcalls⟩

/-- The answers to calls, each of which may change what is called. -/
def respond {σ κ : Type} (serve : σ → κ → σ × Bool) : σ → List κ → List Bool
  | _, [] => []
  | s, c :: calls => (serve s c).2 :: respond serve (serve s c).1 calls

namespace TokenBucket

def serve (b : TokenBucket) (c : Call) : TokenBucket × Bool := b.consume c.tokens.toNat c.time

def granted (b : TokenBucket) : List Call → Nat
  | [] => 0
  | c :: calls =>
    (if (b.serve c).2 then c.tokens.toNat else 0) + (b.serve c).1.granted calls

/-! ## What a bucket is made from -/

def period (rate tick : Nat) : Nat := max 1 (capped tick / rate)

/-- The nanoseconds in which an empty bucket fills up. -/
def capacity (rate burst tick : Nat) : Nat := period rate tick * max burst 1

theorem period_pos (rate tick : Nat) : 0 < period rate tick := by
  unfold period
  omega

variable {rate burst tick start : Nat}

/-- A bucket made at `start` whose clock has come to `last`. -/
def clocked (rate burst tick start last : Nat) : TokenBucket where
  timePerToken := period rate tick
  timePerBurst := capped (capacity rate burst tick)
  lastGrant := last
  epoch := start

theorem period_eq (rate tick : Nat) :
    max 1 (max 1 (capped tick) / rate) = period rate tick := by
  unfold period
  rcases Nat.eq_zero_or_pos (capped tick) with hz | hpos
  · have hone : 1 / rate ≤ 1 := Nat.div_le_self 1 rate
    rw [hz, Nat.zero_div, Nat.max_eq_left (Nat.zero_le 1), Nat.max_eq_left hone]
  · rw [Nat.max_eq_right hpos]

theorem make_eq_clocked (hr : 0 < rate) :
    make rate burst tick start = clocked rate burst tick start 0 := by
  have hne : rate ≠ 0 := by omega
  simp [make, clocked, capacity, period_eq, hne]

/-! ## Single calls -/

theorem serve_clocked (last : Nat) (c : Call) :
    (clocked rate burst tick start last).serve c =
      let now := capped (capped (c.time - start) + capped (capacity rate burst tick))
      let next := capped (max last (now - capped (capacity rate burst tick)) +
        capped (c.tokens.toNat * period rate tick))
      if now < next then (clocked rate burst tick start last, false)
      else (clocked rate burst tick start next, true) := rfl

/-- Below the largest word exact numbers decide: the clock may not pass the present, which is
ahead of the age of the bucket by the capacity. -/
theorem serve_clocked_of_lt (last : Nat) {c : Call}
    (h : capacity rate burst tick + (c.time - start) < maxWord) :
    (clocked rate burst tick start last).serve c =
      let next := max last (c.time - start) + c.tokens.toNat * period rate tick
      if next ≤ c.time - start + capacity rate burst tick then
        (clocked rate burst tick start next, true)
      else (clocked rate burst tick start last, false) := by
  rw [serve_clocked]
  generalize c.time - start = age at h ⊢
  generalize c.tokens.toNat * period rate tick = cost
  generalize capacity rate burst tick = full at h ⊢
  have hfull : capped full = full := by unfold capped; omega
  have hnow : capped (capped age + full) = age + full := by unfold capped; omega
  simp only [hfull, hnow, Nat.add_sub_cancel]
  by_cases hle : max last age + cost ≤ age + full
  · have hnext : capped (max last age + capped cost) = max last age + cost := by
      unfold capped
      omega
    rw [hnext, if_neg (by omega), if_pos hle]
  · have hlt : age + full < capped (max last age + capped cost) := by
      unfold capped
      omega
    rw [if_pos hlt, if_neg hle]

theorem serve_clocked_of_le (last : Nat) {c : Call}
    (h : maxWord ≤ capacity rate burst tick + (c.time - start)) :
    ∃ next, (clocked rate burst tick start last).serve c =
      (clocked rate burst tick start next, true) := by
  rw [serve_clocked]
  have hnow : capped (capped (c.time - start) + capped (capacity rate burst tick)) = maxWord := by
    unfold capped
    omega
  -- No cut sum passes the largest word.
  have hnot : ∀ n, ¬ maxWord < capped n := by
    intro n
    unfold capped
    omega
  simp only [hnow, if_neg (hnot _)]
  exact ⟨_, rfl⟩

end TokenBucket

end TraceSampling
