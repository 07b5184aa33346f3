import TraceSampling.Proofs.TokenBucket.Run

/-!
# The virtual clock and a reservoir

A reservoir stores what the bucket does not: a level, in nanoseconds of production. While nothing is
cut to a word, the two answer every run of calls alike. The level is the distance from the clock to
the shifted present, where a clock that lies more than a burst behind counts as just a burst behind.
-/

namespace TraceSampling

/-- A store that fills by one unit to the nanosecond; `time` is when the level was last brought up
to date. -/
structure Reservoir where
  capacity : Nat
  level : Nat
  time : Nat
  deriving DecidableEq, Repr

namespace Reservoir

def full (capacity start : Nat) : Reservoir := ⟨capacity, capacity, start⟩

def refill (r : Reservoir) (now : Nat) : Reservoir :=
  { r with level := min r.capacity (r.level + (now - r.time)), time := now }

def take (r : Reservoir) (cost : Nat) : Reservoir × Bool :=
  if cost ≤ r.level then ({ r with level := r.level - cost }, true) else (r, false)

def serve (price : Nat) (r : Reservoir) (c : Call) : Reservoir × Bool :=
  (r.refill c.time).take (c.tokens.toNat * price)

end Reservoir

namespace TokenBucket

variable {rate burst tick start : Nat}

/-- A clock at `last` stands for the level of a reservoir. The clock may be ahead of the present by
a capacity, as the present is shifted by that much. -/
structure Tracks (rate burst tick start last : Nat) (r : Reservoir) : Prop where
  capacity_eq : r.capacity = capacity rate burst tick
  start_le : start ≤ r.time
  last_le : last ≤ r.time - start + capacity rate burst tick
  level_eq : r.level = r.time - start + capacity rate burst tick - max last (r.time - start)

theorem tracks_full : Tracks rate burst tick start 0 (.full (capacity rate burst tick) start) where
  capacity_eq := rfl
  start_le := Nat.le_refl start
  last_le := by simp
  level_eq := by simp [Reservoir.full]

theorem Tracks.refill {last : Nat} {r : Reservoir} (h : Tracks rate burst tick start last r)
    {now : Nat} (hnow : r.time ≤ now) : Tracks rate burst tick start last (r.refill now) where
  capacity_eq := h.capacity_eq
  start_le := Nat.le_trans h.start_le hnow
  last_le := by
    have hlast := h.last_le
    simp only [Reservoir.refill]
    omega
  level_eq := by
    have hstart := h.start_le
    have hlast := h.last_le
    simp only [Reservoir.refill, h.capacity_eq, h.level_eq]
    omega

theorem Tracks.take {last : Nat} {r : Reservoir} (h : Tracks rate burst tick start last r)
    {cost : Nat} (hcost : cost ≤ r.level) :
    Tracks rate burst tick start (max last (r.time - start) + cost)
      { r with level := r.level - cost } where
  capacity_eq := h.capacity_eq
  start_le := h.start_le
  last_le := by
    have hlast := h.last_le
    have hlevel := h.level_eq
    simp only
    omega
  level_eq := by
    have hlevel := h.level_eq
    simp only
    omega

theorem Tracks.le_level_iff {last : Nat} {r : Reservoir} (h : Tracks rate burst tick start last r)
    (cost : Nat) :
    cost ≤ r.level ↔
      max last (r.time - start) + cost ≤ r.time - start + capacity rate burst tick := by
  have hlast := h.last_le
  have hlevel := h.level_eq
  omega

theorem Tracks.serve {last : Nat} {r : Reservoir} (h : Tracks rate burst tick start last r)
    {c : Call} (hc : r.time ≤ c.time)
    (hfit : capacity rate burst tick + (c.time - start) < maxWord) :
    ∃ next, (clocked rate burst tick start last).serve c =
        (clocked rate burst tick start next, (r.serve (period rate tick) c).2) ∧
      Tracks rate burst tick start next (r.serve (period rate tick) c).1 ∧
      (r.serve (period rate tick) c).1.time = c.time := by
  have hr := h.refill hc
  have htime : (r.refill c.time).time = c.time := rfl
  have hgrant := hr.le_level_iff (c.tokens.toNat * period rate tick)
  rw [htime] at hgrant
  rw [serve_clocked_of_lt last hfit]
  simp only [← hgrant, Reservoir.serve, Reservoir.take]
  split
  · next hle => exact ⟨_, rfl, hr.take hle, rfl⟩
  · exact ⟨last, rfl, hr, rfl⟩

theorem Tracks.respond_eq {last : Nat} {r : Reservoir} (h : Tracks rate burst tick start last r)
    {calls : List Call} (horder : InOrder r.time calls)
    (hfit : ∀ c ∈ calls, capacity rate burst tick + (c.time - start) < maxWord) :
    respond TokenBucket.serve (clocked rate burst tick start last) calls =
      respond (Reservoir.serve (period rate tick)) r calls := by
  induction calls generalizing last r with
  | nil => rfl
  | cons c calls ih =>
    obtain ⟨hc, hcalls⟩ := horder.cons
    obtain ⟨next, hserve, hnext, htime⟩ := h.serve hc (hfit c (by simp))
    rw [respond, respond, hserve]
    rw [ih hnext (by rwa [htime]) fun d hd => hfit d (by simp [hd])]

/-- As long as nothing is cut to a word, a bucket is a reservoir that starts full and charges a
period for each token. -/
theorem respond_make_eq_reservoir (rate burst tick start : Nat) (calls : List Call) (hr : 0 < rate)
    (horder : InOrder start calls)
    (hfit : ∀ c ∈ calls, capacity rate burst tick + (c.time - start) < maxWord) :
    respond serve (make rate burst tick start) calls =
      respond (Reservoir.serve (period rate tick))
        (.full (capacity rate burst tick) start) calls := by
  rw [make_eq_clocked hr]
  exact tracks_full.respond_eq horder hfit

/-- A burst with a token too many, a call for nothing, a cost beyond any word and a long wait. -/
def burstAndWait : List Call :=
  [⟨4, 7⟩, ⟨1, 7⟩, ⟨0, 7⟩, ⟨0xffffffffffffffff, 8⟩, ⟨1, 500000007⟩, ⟨5, 60000000007⟩,
    ⟨4, 60000000007⟩]

theorem respond_burstAndWait :
    0 < 2 ∧ InOrder 7 burstAndWait ∧
      (∀ c ∈ burstAndWait, capacity 2 4 1000000000 + (c.time - 7) < maxWord) ∧
      respond serve (make 2 4 1000000000 7) burstAndWait =
        respond (Reservoir.serve (period 2 1000000000))
          (.full (capacity 2 4 1000000000) 7) burstAndWait ∧
      respond serve (make 2 4 1000000000 7) burstAndWait =
        [true, false, true, false, true, false, true] :=
  ⟨by decide, by decide, by decide,
    respond_make_eq_reservoir 2 4 1000000000 7 burstAndWait (by decide) (by decide) (by decide),
    by decide⟩

end TokenBucket

end TraceSampling
