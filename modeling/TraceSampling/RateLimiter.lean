import TraceSampling.Strategy
import TraceSampling.TokenBucket

/-!
# Rate limits by root strategy

Traces are charged to the bucket of the strategy that rooted them, or else to the default bucket.
Without either they are not limited.
-/

namespace TraceSampling

structure RateLimiter where
  buckets : List (Strategy × TokenBucket) := []
  default : Option TokenBucket := none
  deriving DecidableEq, Repr

namespace RateLimiter

def bucket? (l : RateLimiter) (s : Strategy) : Option TokenBucket := l.buckets.lookup s

def hasBucket (l : RateLimiter) (s : Strategy) : Bool := (l.bucket? s).isSome

/-- Sets the bucket of a strategy, in the place of the one it may have had. -/
def setBucket (l : RateLimiter) (s : Strategy) (b : TokenBucket) : RateLimiter :=
  { l with buckets := (s, b) :: l.buckets.filter (·.1 ≠ s) }

def setDefault (l : RateLimiter) (b : TokenBucket) : RateLimiter := { l with default := some b }

def isEmpty (l : RateLimiter) : Bool := l.buckets.isEmpty && l.default.isNone

/-- Charges one token to the bucket of a strategy. -/
def allow (l : RateLimiter) (s : Strategy) (now : Nat) : RateLimiter × Bool :=
  match l.bucket? s with
  | some b =>
    let (b, granted) := b.consume 1 now
    (l.setBucket s b, granted)
  | none =>
    match l.default with
    | some b =>
      let (b, granted) := b.consume 1 now
      ({ l with default := some b }, granted)
    | none => (l, true)

end RateLimiter

end TraceSampling
