import TraceSampling.Word

/-!
# Token buckets

A bucket keeps no level. It keeps a virtual clock, the time at which its last token would have been
produced, and grants tokens as long as advancing that clock does not pass the present. All times are
nanoseconds in words of 64 bits; what does not fit a word is cut to the largest one.
-/

namespace TraceSampling

/-- `lastGrant` counts from `epoch` on and is shifted by `timePerBurst`, so that a full bucket
starts at zero. -/
structure TokenBucket where
  timePerToken : Nat
  timePerBurst : Nat
  lastGrant : Nat := 0
  epoch : Nat := 0
  denyAll : Bool := false
  deriving DecidableEq, Repr

namespace TokenBucket

/-- A full bucket that gets `rate` tokens per `tick` and holds `burst` of them, at least one. A rate
of zero denies everything. -/
def make (rate burst tick now : Nat) : TokenBucket :=
  let timePerToken := if rate = 0 then maxWord else max 1 (max 1 (capped tick) / rate)
  { timePerToken
    timePerBurst := capped (timePerToken * max burst 1)
    epoch := now
    denyAll := rate = 0 }

/-- Takes `n` tokens at a shifted time, if they are there by then. -/
def consumeAt (b : TokenBucket) (n now : Nat) : TokenBucket × Bool :=
  let cost := capped (n * b.timePerToken)
  let next := capped (max b.lastGrant (now - b.timePerBurst) + cost)
  if now < next then (b, false) else ({ b with lastGrant := next }, true)

def consume (b : TokenBucket) (n now : Nat) : TokenBucket × Bool :=
  if b.denyAll then (b, false)
  else b.consumeAt n (capped (capped (now - b.epoch) + b.timePerBurst))

/-- Takes single tokens until one is refused or `most` were granted; answers how many. -/
def drain (b : TokenBucket) (now : Nat) : Nat → TokenBucket × Nat
  | 0 => (b, 0)
  | most + 1 =>
    match b.consume 1 now with
    | (b, true) =>
      let (b, n) := b.drain now most
      (b, n + 1)
    | (b, false) => (b, 0)

end TokenBucket

end TraceSampling
