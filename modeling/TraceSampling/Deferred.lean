import TraceSampling.Fraction
import TraceSampling.Settings.Basic
import TraceSampling.Span
import TraceSampling.Strategy

/-!
# Verdicts at the end of spans

Whether a span failed or was slow is known only when it ends. Spans that nothing else kept are
recorded on approval and judged then; a judgement made while the span still runs stays with it as a
mark.
-/

namespace TraceSampling

/-- What a judgement is about. -/
structure Outcome where
  traceId : TraceId
  sampled : Bool := false
  isError : Bool := false
  duration : Nat := 0
  attributes : List Attribute := []

structure Verdict where
  strategy : Strategy
  keep : Bool
  deriving DecidableEq, Repr

def Outcome.ofSpan (d : SpanData) : Outcome where
  traceId := d.context.traceId
  sampled := d.context.isSampled
  isError := d.status.isError
  duration := d.duration
  attributes := d.attributes

namespace Outcome

/-- The text of the first attribute with a key, empty or not. -/
def text? (o : Outcome) (key : String) : Option String :=
  (Attribute.first? o.attributes key).map (·.text)

/-- Whether the span is half of a new edge. -/
def discoveredEdge (o : Outcome) : Bool :=
  (o.text? Key.workflowResult).any fun r => r = "path" || r = "sample"

/-- The strategy that a kept span says it was kept by. -/
def namedStrategy (o : Outcome) : Strategy :=
  ((o.text? Key.strategy).bind Strategy.ofName?).getD .matched

end Outcome

namespace Deferred

/-- Failures come before slowness. -/
def evaluate (s : DeferredSettings) (o : Outcome) : Strategy :=
  if s.enabled = false then .notMatch
  else if s.sampleErrors && o.isError && Fraction.selectsFailure s.errorFraction o.traceId then
    .error
  else if s.slowDuration?.any (· ≤ o.duration) then .slow
  else .notMatch

/-- A mark after a judgement, and whether the outcome was looked at for it. -/
structure Precomputed where
  strategy : Strategy
  evaluated : Bool
  deriving DecidableEq, Repr

/-- Only the first judgement looks at the outcome; later ones repeat it. -/
def precompute (s : DeferredSettings) (mark : Option Strategy) (o : Outcome) : Precomputed :=
  match mark with
  | some strategy => ⟨strategy, false⟩
  | none => ⟨evaluate s o, true⟩

/-- A kept span stays kept. Any other is judged by its mark, or else now, and half of a new edge is
kept in any case. -/
def verdict (s : DeferredSettings) (mark : Option Strategy) (o : Outcome) : Verdict :=
  if o.sampled then ⟨o.namedStrategy, true⟩
  else
    let strategy := mark.getD (evaluate s o)
    ⟨strategy, strategy.isSampled || o.discoveredEdge⟩

/-! ## Live spans -/

/-- The marks of live spans by trace and span. -/
abbrev Marks := List ((TraceId × SpanId) × Strategy)

def Marks.get? (m : Marks) (c : SpanContext) : Option Strategy := m.lookup (c.traceId, c.spanId)

def Marks.erase (m : Marks) (c : SpanContext) : Marks := m.filter (·.1 ≠ (c.traceId, c.spanId))

def Marks.put (m : Marks) (c : SpanContext) (s : Strategy) : Marks :=
  ((c.traceId, c.spanId), s) :: m.erase c

/-- Judges a live span as if it ended now. A span that does not record, or has ended, gets no
mark. -/
def precomputeSpan (s : DeferredSettings) (m : Marks) (c : SpanContext) (live : Option SpanData)
    (now : Int) : Marks × Strategy :=
  match m.get? c, live with
  | some strategy, _ => (m, strategy)
  | none, none => (m, .notMatch)
  | none, some d =>
    let strategy := evaluate s (.ofSpan { d with endTime := now })
    (m.put c strategy, strategy)

/-- A span that is kept by its verdict goes on as a sampled one that names its strategy. -/
def forward (d : SpanData) (v : Verdict) : SpanData :=
  { d with
    attributes :=
      if v.strategy.isSampled then d.attributes ++ [⟨Key.strategy, .text v.strategy.name⟩]
      else d.attributes
    context := d.context.setSampled true }

/-- What goes on of a span that ended; its mark is used up. -/
def onEnd (s : DeferredSettings) (m : Marks) (d : SpanData) : Marks × Option SpanData :=
  let rest := m.erase d.context
  if d.context.isSampled then (rest, some d)
  else
    let v := verdict s (m.get? d.context) (.ofSpan d)
    (rest, if v.keep then some (forward d v) else none)

end Deferred

end TraceSampling
