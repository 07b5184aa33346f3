import TraceSampling.Proofs.RateLimiter.Order

/-!
# Buckets apart from each other

A charge is paid by the bucket of its strategy, or else by the default one, or else by nobody. Who
pays for a strategy never changes, and nobody else's bucket is touched. So among any other charges a
bucket answers those that come to it as it would answer them alone.
-/

namespace TraceSampling

/-- Who pays for the traces of a strategy. -/
inductive Payer where
  | own (s : Strategy)
  /-- The default bucket, for all strategies without their own. -/
  | shared
  | nobody
  deriving DecidableEq, Repr

namespace RateLimiter

/-- What charges are answered when there are no others. Those that nobody pays for are granted. -/
def answersAlone : Option TokenBucket → List Nat → List Bool
  | some b, times => respond TokenBucket.ask b times
  | none, times => times.map fun _ => true

/-- The bucket that single charges leave behind. -/
def spent (b : TokenBucket) (times : List Nat) : TokenBucket :=
  times.foldl (fun b time => (b.ask time).1) b

theorem answersAlone_cons (b : Option TokenBucket) (time : Nat) (times : List Nat) :
    answersAlone b (time :: times) =
      (b.map fun b => (b.ask time).2).getD true ::
        answersAlone (b.map fun b => (b.ask time).1) times := by
  cases b <;> rfl

variable (l : RateLimiter)

def payer (s : Strategy) : Payer :=
  if l.hasBucket s then .own s else if l.default.isSome then .shared else .nobody

/-- What a payer pays from. -/
def purse? : Payer → Option TokenBucket
  | .own s => l.bucket? s
  | .shared => l.default
  | .nobody => none

/-- The times of the charges that a payer pays for. -/
def timesOf (p : Payer) (charges : List Charge) : List Nat :=
  (charges.filter fun c => l.payer c.strategy = p).map (·.time)

/-- The answers to the charges that a payer pays for, among those to all others. -/
def answersTo (p : Payer) (charges : List Charge) : List Bool :=
  ((charges.zip (respond charge l charges)).filter fun a => l.payer a.1.strategy = p).map (·.2)

def chargeAll (charges : List Charge) : RateLimiter :=
  charges.foldl (fun l c => (l.charge c).1) l

/-! ## One charge -/

theorem payer_eq_own_iff (s t : Strategy) :
    l.payer t = .own s ↔ t = s ∧ l.hasBucket s = true := by
  unfold payer
  split
  · next h =>
    constructor
    · rintro ⟨⟩
      exact ⟨rfl, h⟩
    · rintro ⟨rfl, -⟩
      rfl
  · next h =>
    refine iff_of_false ?_ ?_
    · split <;> simp
    · rintro ⟨rfl, hbucket⟩
      exact h hbucket

theorem payer_eq_shared_iff (s : Strategy) :
    l.payer s = .shared ↔ l.hasBucket s = false ∧ l.default.isSome = true := by
  unfold payer
  cases l.hasBucket s <;> cases l.default.isSome <;> simp

theorem charged?_eq_purse? (s : Strategy) : l.charged? s = l.purse? (l.payer s) := by
  unfold charged? payer hasBucket
  cases hown : l.bucket? s with
  | some b => exact hown.symm
  | none => cases hdefault : l.default <;> simp [purse?, hdefault]

theorem charge_granted (c : Charge) :
    (l.charge c).2 =
      ((l.purse? (l.payer c.strategy)).map fun b => (b.ask c.time).2).getD true := by
  rw [← charged?_eq_purse?]
  exact l.allow_granted c.strategy c.time

theorem payer_charge (c : Charge) : (l.charge c).1.payer = l.payer := by
  funext s
  have hown : (l.charge c).1.hasBucket s = l.hasBucket s := by
    rw [hasBucket, charge, bucket?_allow]
    split
    · exact Option.isSome_map
    · rfl
  have hdefault : (l.charge c).1.default.isSome = l.default.isSome := by
    rw [charge, default_allow]
    split
    · rfl
    · exact Option.isSome_map
  rw [payer, payer, hown, hdefault]

/-- Only who has to pay does pay. -/
theorem purse?_charge (c : Charge) (p : Payer) :
    (l.charge c).1.purse? p =
      if l.payer c.strategy = p then (l.purse? p).map fun b => (b.ask c.time).1
      else l.purse? p := by
  cases p with
  | own s =>
    have hpaid : (l.charge c).1.purse? (.own s) =
        if s = c.strategy then (l.bucket? s).map fun b => (b.ask c.time).1 else l.bucket? s :=
      l.bucket?_allow c.strategy c.time s
    rw [hpaid, if_congr (l.payer_eq_own_iff s c.strategy) rfl rfl]
    by_cases hs : c.strategy = s
    · cases hown : l.bucket? s <;> simp [hs, purse?, hasBucket, hown]
    · rw [if_neg (Ne.symm hs), if_neg (fun h => hs h.1)]
      rfl
  | shared =>
    have hpaid : (l.charge c).1.purse? .shared =
        if l.hasBucket c.strategy then l.default
        else l.default.map fun b => (b.ask c.time).1 := l.default_allow c.strategy c.time
    rw [hpaid, if_congr (l.payer_eq_shared_iff c.strategy) rfl rfl]
    cases l.hasBucket c.strategy <;> cases hdefault : l.default <;> simp [purse?, hdefault]
  | nobody =>
    split <;> rfl

/-! ## Runs -/

theorem timesOf_cons (p : Payer) (c : Charge) (charges : List Charge) :
    l.timesOf p (c :: charges) =
      if l.payer c.strategy = p then c.time :: (l.charge c).1.timesOf p charges
      else (l.charge c).1.timesOf p charges := by
  unfold timesOf
  rw [payer_charge]
  by_cases hp : l.payer c.strategy = p <;> simp [hp]

theorem answersTo_cons (p : Payer) (c : Charge) (charges : List Charge) :
    l.answersTo p (c :: charges) =
      if l.payer c.strategy = p then (l.charge c).2 :: (l.charge c).1.answersTo p charges
      else (l.charge c).1.answersTo p charges := by
  unfold answersTo
  rw [payer_charge, respond]
  by_cases hp : l.payer c.strategy = p <;> simp [hp]

theorem answersTo_eq_alone (p : Payer) (charges : List Charge) :
    l.answersTo p charges = answersAlone (l.purse? p) (l.timesOf p charges) := by
  induction charges generalizing l with
  | nil => cases l.purse? p <;> rfl
  | cons c charges ih =>
    rw [answersTo_cons, timesOf_cons, ih, purse?_charge]
    split
    · next hp => rw [answersAlone_cons, charge_granted, hp]
    · rfl

theorem purse?_chargeAll (p : Payer) (charges : List Charge) :
    (l.chargeAll charges).purse? p = (l.purse? p).map (spent · (l.timesOf p charges)) := by
  induction charges generalizing l with
  | nil =>
    have hempty : l.chargeAll [] = l := rfl
    rw [hempty]
    cases l.purse? p <;> rfl
  | cons c charges ih =>
    have hnext : l.chargeAll (c :: charges) = (l.charge c).1.chargeAll charges := rfl
    rw [hnext, ih, timesOf_cons, purse?_charge]
    split
    · rw [Option.map_map]
      rfl
    · rfl

/-- Among charges to any strategies a bucket gives those that it has to pay for the answers it would
give to them alone, and it is left as they alone would leave it. Where nobody pays all are granted.
So charges that somebody else pays for can be put in, left out and moved without any effect on the
answers or on the bucket. -/
theorem buckets_independent (charges : List Charge) (p : Payer) :
    l.answersTo p charges = answersAlone (l.purse? p) (l.timesOf p charges) ∧
      (l.chargeAll charges).purse? p = (l.purse? p).map (spent · (l.timesOf p charges)) ∧
      (l.purse? p = none → ∀ granted ∈ l.answersTo p charges, granted = true) ∧
      ∀ others, l.timesOf p others = l.timesOf p charges →
        l.answersTo p others = l.answersTo p charges ∧
          (l.chargeAll others).purse? p = (l.chargeAll charges).purse? p := by
  refine ⟨l.answersTo_eq_alone p charges, l.purse?_chargeAll p charges, ?_, ?_⟩
  · intro hnone granted hgranted
    rw [answersTo_eq_alone, hnone] at hgranted
    obtain ⟨_, -, rfl⟩ := List.mem_map.mp hgranted
    rfl
  · intro others hsame
    constructor
    · rw [answersTo_eq_alone, answersTo_eq_alone, hsame]
    · rw [purse?_chargeAll, purse?_chargeAll, hsame]

end RateLimiter

end TraceSampling
