import TraceSampling.Binary64.Basic
import TraceSampling.Dyeing.Rules
import TraceSampling.RateLimiter
import TraceSampling.Request
import TraceSampling.Table

/-!
# Settings

Everything that can be set, with its default, and how settings from outside are brought into the
ranges that sampling relies on.
-/

namespace TraceSampling

namespace Default

/-- One trace in a thousand. -/
def fraction : Binary64 := Binary64.ofDecimal false 1 (-3)

def windowSecs : Nat := 60
def cacheLifetimeSecs : Nat := 3600
def tickMs : Nat := 1000

/-- The name of the bucket for strategies without their own. -/
def bucketName : String := "default"

end Default

/-- Floors per interface: spans kept in each window, and how many interfaces are tracked. -/
structure MinSampleSettings where
  enabled : Bool := false
  count : Nat := 1
  windowSecs : Nat := Default.windowSecs
  maxKeys : Nat := 10000
  deriving DecidableEq, Repr

structure ExactRuleSettings where
  key : String := ""
  values : List String := []
  deriving DecidableEq, Repr

structure DyeingSettings where
  enabled : Bool := false
  rules : List ExactRuleSettings := []
  deriving DecidableEq, Repr

/-- A filter is shipped as a bitmap with its geometry, started empty with a geometry, or sized for a
number of values and a share of wrong answers. The values are inserted in any case. -/
structure BloomRuleSettings where
  key : String := ""
  bitSize : Option Nat := none
  hashCount : Option Nat := none
  bitmap : Option String := none
  estimatedCount : Option Nat := none
  falsePositiveRate : Option Binary64 := none
  values : List String := []
  deriving DecidableEq, Repr

structure BloomDyeingSettings where
  enabled : Bool := false
  rules : List BloomRuleSettings := []
  deriving DecidableEq, Repr

structure WorkflowSettings where
  enabled : Bool := true
  maxPaths : Nat := 10000
  cacheLifetimeSecs : Nat := Default.cacheLifetimeSecs
  maxInsertionsPerMinute : Nat := 1000
  deriving DecidableEq, Repr

structure BucketSettings where
  rate : Nat := 0
  burst : Nat := 0
  deriving DecidableEq, Repr

/-- Buckets by the names of strategies, and the one for all others. -/
structure RateLimitSettings where
  tickMs : Nat := Default.tickMs
  buckets : Table BucketSettings := []
  deriving DecidableEq, Repr

/-- Verdicts at the end of spans. A slow duration of zero is none. -/
structure DeferredSettings where
  enabled : Bool := false
  sampleErrors : Bool := true
  errorFraction : Binary64 := Binary64.one
  slowDurationMs : Nat := 0
  deriving DecidableEq, Repr

structure Settings where
  fraction : Binary64 := Default.fraction
  kindFractions : Table Binary64 := []
  methodFractions : Table Binary64 := []
  minSample : MinSampleSettings := {}
  dyeing : DyeingSettings := {}
  bloomDyeing : BloomDyeingSettings := {}
  workflow : WorkflowSettings := {}
  rateLimit : RateLimitSettings := {}
  deferred : DeferredSettings := {}
  deriving DecidableEq, Repr

/-! ## Durations in nanoseconds -/

def nanosPerSecond : Nat := 1_000_000_000

def nanosPerMilli : Nat := 1_000_000

def MinSampleSettings.window (s : MinSampleSettings) : Nat := s.windowSecs * nanosPerSecond

def WorkflowSettings.cacheLifetime (s : WorkflowSettings) : Nat :=
  s.cacheLifetimeSecs * nanosPerSecond

def RateLimitSettings.tick (s : RateLimitSettings) : Nat := s.tickMs * nanosPerMilli

def DeferredSettings.slowDuration? (s : DeferredSettings) : Option Nat :=
  if s.slowDurationMs = 0 then none else some (s.slowDurationMs * nanosPerMilli)

/-! ## Building what settings describe -/

/-- The limiter with all buckets full. A bucket whose name is no strategy's is left out. -/
def RateLimitSettings.limiter (s : RateLimitSettings) (now : Nat) : RateLimiter :=
  s.buckets.foldl (fun l (name, b) =>
    let bucket := TokenBucket.make b.rate b.burst s.tick now
    if name = Default.bucketName then l.setDefault bucket
    else
      match Strategy.ofName? name with
      | some strategy => l.setBucket strategy bucket
      | none => l) {}

/-- The filter before the values of the rule are inserted. -/
def BloomRuleSettings.base (r : BloomRuleSettings) : Except FilterFault BloomFilter :=
  match r.bitmap, r.bitSize, r.hashCount, r.falsePositiveRate with
  | some bitmap, some bitSize, some hashCount, _ => BloomFilter.ofBase64 bitSize hashCount bitmap
  | none, some bitSize, some hashCount, none => BloomFilter.make bitSize hashCount
  | _, _, _, some rate => BloomFilter.forRate (r.estimatedCount.getD r.values.length) rate
  | _, _, _, none => .error (.incompleteRule r.key)

def BloomRuleSettings.build (r : BloomRuleSettings) : Except FilterFault BloomFilter :=
  r.base.map (·.insertAll r.values)

/-! ## Sanitising -/

/-- A duration of zero would never let time pass, so it becomes the default. -/
def nonZeroOr (fallback n : Nat) : Nat := if n = 0 then fallback else n

namespace Settings

/-- Brings fractions into the unit interval and replaces durations of zero. -/
def sanitize (s : Settings) : Settings :=
  { s with
    fraction := s.fraction.clampUnit Default.fraction
    kindFractions := s.kindFractions.mapValues (·.clampUnit Default.fraction)
    methodFractions := s.methodFractions.mapValues (·.clampUnit Default.fraction)
    deferred := { s.deferred with
      errorFraction := s.deferred.errorFraction.clampUnit Binary64.one }
    minSample := { s.minSample with
      windowSecs := nonZeroOr Default.windowSecs s.minSample.windowSecs }
    workflow := { s.workflow with
      cacheLifetimeSecs := nonZeroOr Default.cacheLifetimeSecs s.workflow.cacheLifetimeSecs }
    rateLimit := { s.rateLimit with tickMs := nonZeroOr Default.tickMs s.rateLimit.tickMs } }

/-- The fraction for a span: that of its name, else that of its kind, else the global one. -/
def fractionFor (s : Settings) (name : String) (kind : SpanKind) : Binary64 :=
  (s.methodFractions.get? name <|> s.kindFractions.get? kind.name).getD s.fraction

end Settings

end TraceSampling
