import Mathlib.Data.List.Nodup
import TraceSampling.Proofs.Sampler.Spending
import TraceSampling.Proofs.TokenBucket.Alike

/-!
# Limiters from tables in any order

Names are matched without regard to case, so two names of a table may denote one strategy. The
bucket of a strategy is that of its last name, so the order of a table counts as soon as two such
buckets have different budgets. Nothing else depends on the order.
-/

namespace TraceSampling

/-- A trace that is charged to the bucket of a strategy. -/
structure Charge where
  strategy : Strategy
  time : Nat
  deriving DecidableEq, Repr

namespace RateLimiter

/-! ## Values in the same places -/

section Rel

variable {α β γ δ : Type} {R : α → β → Prop} {S : γ → δ → Prop} {a a' : Option α} {b b' : Option β}

theorem isSome_eq_of_rel (h : Option.Rel R a b) : a.isSome = b.isSome := by
  cases h <;> rfl

theorem eq_of_rel {a b : Option α} (h : Option.Rel Eq a b) : a = b := by
  cases h with
  | some h => exact congrArg some h
  | none => rfl

theorem rel_or (h : Option.Rel R a b) (h' : Option.Rel R a' b') :
    Option.Rel R (a.or a') (b.or b') := by
  cases h with
  | some h => exact .some h
  | none => exact h'

theorem rel_map {f : α → γ} {g : β → δ} (h : Option.Rel R a b)
    (hfg : ∀ x y, R x y → S (f x) (g y)) : Option.Rel S (a.map f) (b.map g) := by
  cases h with
  | some h => exact .some (hfg _ _ h)
  | none => exact .none

/-- What is found in two orders of a list. -/
theorem rel_find? {Q : α → α → Prop} {p : α → Bool} {l l' : List α} (hperm : l.Perm l')
    (hQ : ∀ x ∈ l, ∀ y ∈ l, p x = true → p y = true → Q x y) :
    Option.Rel Q (l.find? p) (l'.find? p) := by
  have hnone : l.find? p = none ↔ l'.find? p = none := by
    simp only [List.find?_eq_none, hperm.mem_iff]
  cases hx : l.find? p with
  | none =>
    rw [hnone.mp hx]
    exact .none
  | some x =>
    cases hy : l'.find? p with
    | none => simp [hnone.mpr hy] at hx
    | some y =>
      exact .some (hQ x (List.mem_of_find?_eq_some hx) y
        (hperm.mem_iff.mpr (List.mem_of_find?_eq_some hy)) (List.find?_some hx)
        (List.find?_some hy))

end Rel

/-! ## Limiters that answer alike -/

def charge (l : RateLimiter) (c : Charge) : RateLimiter × Bool := l.allow c.strategy c.time

/-- Each bucket answers like the one in its place. -/
structure Alike (start : Nat) (l l' : RateLimiter) : Prop where
  bucket? : ∀ s, Option.Rel (TokenBucket.Alike start) (l.bucket? s) (l'.bucket? s)
  default : Option.Rel (TokenBucket.Alike start) l.default l'.default

variable {start : Nat} {l l' : RateLimiter}

theorem Alike.charge (h : Alike start l l') {c : Charge} (hc : start ≤ c.time) :
    (l.charge c).2 = (l'.charge c).2 ∧ Alike c.time (l.charge c).1 (l'.charge c).1 := by
  have hpaid {a a' : Option TokenBucket} (ha : Option.Rel (TokenBucket.Alike start) a a') :
      Option.Rel (TokenBucket.Alike c.time) (a.map fun b => (b.consume 1 c.time).1)
        (a'.map fun b => (b.consume 1 c.time).1) := rel_map ha fun _ _ hb => (hb.step hc).2
  have hkept {a a' : Option TokenBucket} (ha : Option.Rel (TokenBucket.Alike start) a a') :
      Option.Rel (TokenBucket.Alike c.time) a a' := by
    simpa using rel_map (f := id) (g := id) ha fun _ _ hb => hb.later hc
  unfold RateLimiter.charge
  refine ⟨?_, fun s => ?_, ?_⟩
  · have hanswer : Option.Rel Eq ((l.charged? c.strategy).map fun b => (b.consume 1 c.time).2)
        ((l'.charged? c.strategy).map fun b => (b.consume 1 c.time).2) :=
      rel_map (rel_or (h.bucket? c.strategy) h.default) fun _ _ hb => (hb.step hc).1
    rw [allow_granted, allow_granted, eq_of_rel hanswer]
  · rw [bucket?_allow, bucket?_allow]
    split
    · exact hpaid (h.bucket? s)
    · exact hkept (h.bucket? s)
  · rw [default_allow, default_allow, hasBucket, hasBucket,
      isSome_eq_of_rel (h.bucket? c.strategy)]
    split
    · exact hkept h.default
    · exact hpaid h.default

theorem Alike.respond_eq (h : Alike start l l') {charges : List Charge}
    (horder : (start :: charges.map (·.time)).Pairwise (· ≤ ·)) :
    respond RateLimiter.charge l charges = respond RateLimiter.charge l' charges := by
  induction charges generalizing start l l' with
  | nil => rfl
  | cons c charges ih =>
    obtain ⟨hstart, hcharges⟩ := List.pairwise_cons.mp horder
    obtain ⟨hanswer, hnext⟩ := h.charge (hstart c.time (by simp))
    rw [respond, respond, hanswer, ih hnext hcharges]

/-- Charges to one bucket are answered by that bucket. -/
theorem respond_of_bucket {s : Strategy} {b : TokenBucket} (h : l.bucket? s = some b)
    (times : List Nat) :
    respond charge l (times.map (Charge.mk s)) = respond TokenBucket.ask b times := by
  induction times generalizing l b with
  | nil => rfl
  | cons time times ih =>
    have hgranted : (l.charge ⟨s, time⟩).2 = (b.ask time).2 := by
      rw [charge, allow_granted, charged?, h]
      rfl
    have hnext : (l.charge ⟨s, time⟩).1.bucket? s = some (b.ask time).1 := by
      rw [charge, bucket?_allow, if_pos rfl, h]
      rfl
    rw [List.map_cons, respond, respond, hgranted, ih hnext]

/-! ## Buckets by name -/

/-- Sets the bucket that a name denotes, if it denotes one. -/
def setNamed (l : RateLimiter) (name : String) (b : TokenBucket) : RateLimiter :=
  if name = Default.bucketName then l.setDefault b
  else
    match Strategy.ofName? name with
    | some s => l.setBucket s b
    | none => l

variable (l)

theorem bucket?_setNamed (name : String) (b : TokenBucket) (s : Strategy) :
    (l.setNamed name b).bucket? s =
      if Strategy.ofName? name = some s then some b else l.bucket? s := by
  unfold setNamed
  split
  · next hdefault =>
    have hnone : Strategy.ofName? Default.bucketName = none := by decide +kernel
    rw [hdefault, hnone, if_neg (by simp)]
    rfl
  · cases Strategy.ofName? name with
    | none => simp
    | some t => simp [bucket?_setBucket, eq_comm]

theorem default_setNamed (name : String) (b : TokenBucket) :
    (l.setNamed name b).default = if name = Default.bucketName then some b else l.default := by
  unfold setNamed
  split
  · rfl
  · cases Strategy.ofName? name <;> rfl

end RateLimiter

namespace RateLimitSettings

open RateLimiter

variable (s : RateLimitSettings) (now : Nat)

def bucket (b : BucketSettings) : TokenBucket := TokenBucket.make b.rate b.burst s.tick now

/-- The bucket of the last name that meets a condition. -/
def last? (p : String → Bool) : Option TokenBucket :=
  (s.buckets.reverse.find? fun e => p e.1).map fun e => s.bucket now e.2

theorem limiter_eq :
    s.limiter now = s.buckets.foldl (fun l e => l.setNamed e.1 (s.bucket now e.2)) {} := rfl

/-- What reads the bucket under a name finds the one that was set last. -/
theorem read_limiter (read : RateLimiter → Option TokenBucket) {p : String → Bool}
    (hset : ∀ l name b, read (l.setNamed name b) = if p name then some b else read l)
    (hempty : read {} = none) : read (s.limiter now) = s.last? now p := by
  -- A bucket that was there before is read if no entry of the table sets it.
  have hfold (t : Table BucketSettings) (l : RateLimiter) :
      read (t.foldl (fun l e => l.setNamed e.1 (s.bucket now e.2)) l) =
        ((t.reverse.find? fun e => p e.1).map fun e => s.bucket now e.2).or (read l) := by
    induction t generalizing l with
    | nil => rfl
    | cons e t ih =>
      rw [List.foldl_cons, ih, hset, List.reverse_cons, List.find?_append, Option.map_or,
        Option.or_assoc]
      cases hp : p e.1 <;> simp [hp]
  rw [limiter_eq, hfold, hempty, Option.or_none]
  rfl

theorem limiter_bucket? (strategy : Strategy) :
    (s.limiter now).bucket? strategy =
      s.last? now (fun name => Strategy.ofName? name = some strategy) :=
  s.read_limiter now (RateLimiter.bucket? · strategy)
    (fun l name b => by simp [bucket?_setNamed]) rfl

theorem limiter_default :
    (s.limiter now).default = s.last? now (· = Default.bucketName) :=
  s.read_limiter now RateLimiter.default (fun l name b => by simp [default_setNamed]) rfl

/-! ## Orders of a table -/

variable {s}

theorem rel_last? {t t' : Table BucketSettings} (hperm : t.Perm t') {p : String → Bool}
    (halike : ∀ e ∈ t, ∀ e' ∈ t, p e.1 = true → p e'.1 = true →
      TokenBucket.SameBudget s.tick e.2 e'.2) :
    Option.Rel (TokenBucket.Alike now) (last? { s with buckets := t } now p)
      (last? { s with buckets := t' } now p) := by
  have hreverse : t.reverse.Perm t'.reverse :=
    (t.reverse_perm.trans hperm).trans t'.reverse_perm.symm
  refine rel_map (rel_find? hreverse fun e he e' he' hp hp' => ?_) fun e e' hbudget =>
    (TokenBucket.alike_make_iff e.2 e'.2 s.tick now).mpr hbudget
  exact halike e (List.mem_reverse.mp he) e' (List.mem_reverse.mp he') hp hp'

/-- The orders of a table make limiters that answer alike exactly if the buckets of each strategy
have the same budget. -/
theorem limiter_of_perm_iff (s : RateLimitSettings) (now : Nat)
    (hnames : (s.buckets.map (·.1)).Nodup) :
    (∀ t t', t.Perm s.buckets → t'.Perm s.buckets → ∀ charges : List Charge,
      (now :: charges.map (·.time)).Pairwise (· ≤ ·) →
        respond charge (limiter { s with buckets := t } now) charges =
          respond charge (limiter { s with buckets := t' } now) charges) ↔
      ∀ e ∈ s.buckets, ∀ e' ∈ s.buckets, ∀ strategy,
        Strategy.ofName? e.1 = some strategy → Strategy.ofName? e'.1 = some strategy →
          TokenBucket.SameBudget s.tick e.2 e'.2 := by
  constructor
  · intro horders e he e' he' strategy hname hname'
    refine (TokenBucket.alike_make_iff e.2 e'.2 s.tick now).mp fun times htimes => ?_
    -- Either entry comes last in some order of the table.
    have hlast {e : String × BucketSettings} (hname : Strategy.ofName? e.1 = some strategy) :
        (limiter { s with buckets := s.buckets.erase e ++ [e] } now).bucket? strategy =
          some (s.bucket now e.2) := by
      rw [limiter_bucket?, last?]
      simp [hname]
      rfl
    have hperm {e : String × BucketSettings} (he : e ∈ s.buckets) :
        (s.buckets.erase e ++ [e]).Perm s.buckets :=
      List.perm_append_comm.trans (List.perm_cons_erase he).symm
    have hrun := horders _ _ (hperm he) (hperm he') (times.map (Charge.mk strategy))
      (by simpa [Function.comp_def] using htimes)
    rwa [respond_of_bucket (hlast hname), respond_of_bucket (hlast hname')] at hrun
  · intro hbudgets t t' ht ht' charges horder
    have hperm : t.Perm t' := ht.trans ht'.symm
    refine Alike.respond_eq ⟨fun strategy => ?_, ?_⟩ horder
    · rw [limiter_bucket?, limiter_bucket?]
      refine rel_last? now hperm fun e he e' he' hname hname' => ?_
      exact hbudgets e (ht.mem_iff.mp he) e' (ht.mem_iff.mp he') strategy
        (of_decide_eq_true hname) (of_decide_eq_true hname')
    · rw [limiter_default, limiter_default]
      refine rel_last? now hperm fun e he e' he' hname hname' => ?_
      -- Only one name is that of the default bucket, and no name is there twice.
      have hsame : e = e' := List.inj_on_of_nodup_map hnames (ht.mem_iff.mp he)
        (ht.mem_iff.mp he') ((of_decide_eq_true hname).trans (of_decide_eq_true hname').symm)
      rw [hsame]
      exact (TokenBucket.alike_make_iff e'.2 e'.2 s.tick now).mp (.refl now _)

/-- A bucket under two spellings of its name, one under no strategy's name, and the default one. -/
def spelledTwice : RateLimitSettings where
  buckets :=
    [("dyeing", { rate := 2, burst := 4 }), ("default", { rate := 1, burst := 1 }),
      ("Dyeing", { rate := 2, burst := 4 }), ("sometimes", { rate := 9, burst := 9 })]

theorem limiter_spelledTwice :
    (spelledTwice.buckets.map (·.1)).Nodup ∧
      ∀ t t', t.Perm spelledTwice.buckets → t'.Perm spelledTwice.buckets →
        ∀ charges : List Charge, (0 :: charges.map (·.time)).Pairwise (· ≤ ·) →
          respond charge (limiter { spelledTwice with buckets := t } 0) charges =
            respond charge (limiter { spelledTwice with buckets := t' } 0) charges := by
  have hnames : (spelledTwice.buckets.map (·.1)).Nodup := by decide +kernel
  have hbucket : ∀ e ∈ spelledTwice.buckets, (Strategy.ofName? e.1).isSome = true →
      e.2 = { rate := 2, burst := 4 } := by decide +kernel
  refine ⟨hnames, (limiter_of_perm_iff spelledTwice 0 hnames).mpr ?_⟩
  intro e he e' he' strategy hname hname'
  rw [hbucket e he (by simp [hname]), hbucket e' he' (by simp [hname'])]
  decide

/-- A bucket with a token under one spelling of its name, and with none under the other. -/
theorem limiter_spelledApart :
    let t : Table BucketSettings :=
      [("dyeing", { rate := 1, burst := 1 }), ("DYEING", { rate := 0, burst := 0 })]
    (t.map (·.1)).Nodup ∧ t.reverse.Perm t ∧
      respond charge (limiter { buckets := t } 0) [⟨.dyeing, 0⟩] = [false] ∧
      respond charge (limiter { buckets := t.reverse } 0) [⟨.dyeing, 0⟩] = [true] := by
  decide +kernel

end RateLimitSettings

end TraceSampling
