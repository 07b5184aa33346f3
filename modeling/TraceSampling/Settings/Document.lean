import TraceSampling.Json.Reader
import TraceSampling.Settings.Basic

/-!
# Settings documents

The members of a settings document, in the order in which a record may also be written as an array,
and settings as the tree of such a document. A tree holds the values before they are written: whole
and real numbers stay apart, and the members of an object keep their order.
-/

namespace TraceSampling

namespace Json

inductive Tree where
  | flag (b : Bool)
  | natural (n : Nat)
  | real (x : Binary64)
  | text (s : String)
  | list (items : List Tree)
  | object (members : List (String × Tree))

end Json

open Json

namespace MinSampleSettings

def members : List (Member MinSampleSettings) :=
  [⟨"enabled", fun s => return { s with enabled := ← flag }⟩,
    ⟨"count", fun s => return { s with count := ← natural 0xffffffff }⟩,
    ⟨"window_secs", fun s => return { s with windowSecs := ← natural maxWord }⟩,
    ⟨"max_keys", fun s => return { s with maxKeys := ← natural maxWord }⟩]

def toTree (s : MinSampleSettings) : Tree :=
  .object [("enabled", .flag s.enabled), ("count", .natural s.count),
    ("window_secs", .natural s.windowSecs), ("max_keys", .natural s.maxKeys)]

end MinSampleSettings

namespace ExactRuleSettings

def members : List (Member ExactRuleSettings) :=
  [⟨"key", fun s => return { s with key := ← text }⟩,
    ⟨"values", fun s => return { s with values := ← list text }⟩]

def toTree (r : ExactRuleSettings) : Tree :=
  .object [("key", .text r.key), ("values", .list (r.values.map .text))]

end ExactRuleSettings

namespace DyeingSettings

def members : List (Member DyeingSettings) :=
  [⟨"enabled", fun s => return { s with enabled := ← flag }⟩,
    ⟨"rules", fun s => return { s with rules := ← list (record ExactRuleSettings.members {}) }⟩]

def toTree (s : DyeingSettings) : Tree :=
  .object [("enabled", .flag s.enabled), ("rules", .list (s.rules.map (·.toTree)))]

end DyeingSettings

namespace BloomRuleSettings

def members : List (Member BloomRuleSettings) :=
  [⟨"key", fun s => return { s with key := ← text }⟩,
    ⟨"bit_size", fun s => return { s with bitSize := ← optional (natural maxWord) }⟩,
    ⟨"hash_count", fun s => return { s with hashCount := ← optional (natural 0xffffffff) }⟩,
    ⟨"bitmap", fun s => return { s with bitmap := ← optional text }⟩,
    ⟨"estimated_count", fun s =>
      return { s with estimatedCount := ← optional (natural maxWord) }⟩,
    ⟨"false_positive_rate", fun s => return { s with falsePositiveRate := ← optional real }⟩,
    ⟨"values", fun s => return { s with values := ← list text }⟩]

/-- A member that is only written if there is a value for it. -/
def given {α : Type} (key : String) (leaf : α → Tree) (value : Option α) : List (String × Tree) :=
  (value.map fun v => (key, leaf v)).toList

def toTree (r : BloomRuleSettings) : Tree :=
  .object ([("key", .text r.key)] ++ given "bit_size" .natural r.bitSize ++
    given "hash_count" .natural r.hashCount ++ given "bitmap" .text r.bitmap ++
    given "estimated_count" .natural r.estimatedCount ++
    given "false_positive_rate" .real r.falsePositiveRate ++
    [("values", .list (r.values.map .text))])

def ofText (source : String) : Except Fault BloomRuleSettings :=
  document (record members {}) source

end BloomRuleSettings

namespace BloomDyeingSettings

def members : List (Member BloomDyeingSettings) :=
  [⟨"enabled", fun s => return { s with enabled := ← flag }⟩,
    ⟨"rules", fun s => return { s with rules := ← list (record BloomRuleSettings.members {}) }⟩]

def toTree (s : BloomDyeingSettings) : Tree :=
  .object [("enabled", .flag s.enabled), ("rules", .list (s.rules.map (·.toTree)))]

end BloomDyeingSettings

namespace WorkflowSettings

def members : List (Member WorkflowSettings) :=
  [⟨"enabled", fun s => return { s with enabled := ← flag }⟩,
    ⟨"max_paths", fun s => return { s with maxPaths := ← natural maxWord }⟩,
    ⟨"cache_lifetime_secs", fun s => return { s with cacheLifetimeSecs := ← natural maxWord }⟩,
    ⟨"max_insertions_per_minute", fun s =>
      return { s with maxInsertionsPerMinute := ← natural maxWord }⟩]

def toTree (s : WorkflowSettings) : Tree :=
  .object [("enabled", .flag s.enabled), ("max_paths", .natural s.maxPaths),
    ("cache_lifetime_secs", .natural s.cacheLifetimeSecs),
    ("max_insertions_per_minute", .natural s.maxInsertionsPerMinute)]

end WorkflowSettings

namespace BucketSettings

def members : List (Member BucketSettings) :=
  [⟨"rate", fun s => return { s with rate := ← natural maxWord }⟩,
    ⟨"burst", fun s => return { s with burst := ← natural maxWord }⟩]

def toTree (s : BucketSettings) : Tree :=
  .object [("rate", .natural s.rate), ("burst", .natural s.burst)]

end BucketSettings

namespace RateLimitSettings

def members : List (Member RateLimitSettings) :=
  [⟨"tick_ms", fun s => return { s with tickMs := ← natural maxWord }⟩,
    ⟨"buckets", fun s => return { s with buckets := ← table (record BucketSettings.members {}) }⟩]

def toTree (s : RateLimitSettings) : Tree :=
  .object [("tick_ms", .natural s.tickMs), ("buckets", .object (s.buckets.mapValues (·.toTree)))]

def ofText (source : String) : Except Fault RateLimitSettings :=
  document (record members {}) source

end RateLimitSettings

namespace DeferredSettings

def members : List (Member DeferredSettings) :=
  [⟨"enabled", fun s => return { s with enabled := ← flag }⟩,
    ⟨"sample_errors", fun s => return { s with sampleErrors := ← flag }⟩,
    ⟨"error_fraction", fun s => return { s with errorFraction := ← real }⟩,
    ⟨"slow_duration_ms", fun s => return { s with slowDurationMs := ← natural maxWord }⟩]

def toTree (s : DeferredSettings) : Tree :=
  .object [("enabled", .flag s.enabled), ("sample_errors", .flag s.sampleErrors),
    ("error_fraction", .real s.errorFraction), ("slow_duration_ms", .natural s.slowDurationMs)]

end DeferredSettings

namespace Settings

def members : List (Member Settings) :=
  [⟨"fraction", fun s => return { s with fraction := ← real }⟩,
    ⟨"kind_fractions", fun s => return { s with kindFractions := ← table real }⟩,
    ⟨"method_fractions", fun s => return { s with methodFractions := ← table real }⟩,
    ⟨"min_sample", fun s => return { s with minSample := ← record MinSampleSettings.members {} }⟩,
    ⟨"dyeing", fun s => return { s with dyeing := ← record DyeingSettings.members {} }⟩,
    ⟨"bloom_dyeing", fun s =>
      return { s with bloomDyeing := ← record BloomDyeingSettings.members {} }⟩,
    ⟨"workflow", fun s => return { s with workflow := ← record WorkflowSettings.members {} }⟩,
    ⟨"rate_limit", fun s => return { s with rateLimit := ← record RateLimitSettings.members {} }⟩,
    ⟨"deferred", fun s => return { s with deferred := ← record DeferredSettings.members {} }⟩]

def ofText (source : String) : Except Fault Settings := document (record members {}) source

def toTree (s : Settings) : Tree :=
  .object [("fraction", .real s.fraction),
    ("kind_fractions", .object (s.kindFractions.mapValues .real)),
    ("method_fractions", .object (s.methodFractions.mapValues .real)),
    ("min_sample", s.minSample.toTree), ("dyeing", s.dyeing.toTree),
    ("bloom_dyeing", s.bloomDyeing.toTree), ("workflow", s.workflow.toTree),
    ("rate_limit", s.rateLimit.toTree), ("deferred", s.deferred.toTree)]

end Settings

end TraceSampling
