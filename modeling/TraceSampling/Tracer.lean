import TraceSampling.Sampler.Basic

/-!
# Tracing with a sampler

Spans from start to end: the sampler decides which of them record, and those that end pass the
verdict before they reach the processor behind it. What the processor is told is answered as a list
of calls.
-/

namespace TraceSampling

/-- What a processor of spans is told. -/
inductive ProcessorCall where
  | setResource
  | onStart (span : SpanId)
  | onEnd (data : SpanData)
  | forceFlush
  | shutDown (timeoutMs : Nat)

/-- A span records as long as it has data. -/
structure Span where
  context : SpanContext
  data : Option SpanData := none

def Span.isRecording (s : Span) : Bool := s.data.isSome

/-- Spans under the names that their owner gives them. -/
structure Tracer where
  sampler : Sampler
  spans : Table Span := []
  isShutDown : Bool := false

/-- What a span is started with. -/
structure SpanStart where
  request : Request
  spanId : SpanId
  parent : Option SpanContext := none
  startTime : Option Int := none

/-- Attributes kept on a span; more than these are only counted. -/
def attributeLimit : Nat := 128

/-- How long a processor may take to shut down. -/
def shutDownTimeoutMs : Nat := 5000

def SpanData.add (d : SpanData) (a : Attribute) : SpanData :=
  if d.attributes.length < attributeLimit then { d with attributes := d.attributes ++ [a] }
  else { d with droppedAttributes := d.droppedAttributes + 1 }

/-- A status only gives way to a higher one. -/
def SpanData.raise (d : SpanData) (status : SpanStatus) : SpanData :=
  if d.status.isBelow status then { d with status } else d

namespace Tracer

/-- The calls that connecting a processor makes. -/
def connectCalls : List ProcessorCall := [.setResource]

def span? (t : Tracer) (id : String) : Option Span := Table.get? t.spans id

def put (t : Tracer) (id : String) (s : Span) : Tracer := { t with spans := t.spans.put id s }

/-- A span below another one belongs to its trace. -/
def traceOf (s : SpanStart) : TraceId := (s.parent.map (·.traceId)).getD s.request.traceId

/-- Starts a span. Dropped ones get a context and nothing else; after the tracer is shut down they
do not get even that. -/
def start (t : Tracer) (id : String) (s : SpanStart) (now : Nat) :
    Tracer × Span × List ProcessorCall :=
  if t.isShutDown then
    let span : Span := { context := {} }
    (t.put id span, span, [])
  else
    let request := { s.request with traceId := traceOf s }
    let (sampler, result, vendors) := t.sampler.shouldSample request s.parent now
    let t := { t with sampler }
    let bare : SpanContext := { traceId := request.traceId, spanId := s.spanId, vendors }
    if result.decision = .drop then
      let span : Span := { context := bare }
      (t.put id span, span, [])
    else
      let flags := (s.parent.map (·.flags)).getD 0
      let context := SpanContext.setSampled { bare with flags } (result.decision = .recordAndSample)
      let startTime := s.startTime.getD now
      let data := (request.attributes ++ result.attributes).foldl SpanData.add
        { context, name := request.name, startTime, endTime := startTime }
      let span : Span := { context, data := some data }
      (t.put id span, span, [.onStart s.spanId])

/-- Changes the data of a span that still records. -/
def modify (t : Tracer) (id : String) (f : SpanData → SpanData) : Tracer :=
  match t.span? id with
  | none => t
  | some s => t.put id { s with data := s.data.map f }

def addAttributes (t : Tracer) (id : String) (attributes : List Attribute) : Tracer :=
  t.modify id fun d => attributes.foldl SpanData.add d

def raiseStatus (t : Tracer) (id : String) (status : SpanStatus) : Tracer :=
  t.modify id (·.raise status)

/-- Ends a span, once. After the tracer is shut down nobody is told. -/
def finish (t : Tracer) (id : String) (endTime : Int) : Tracer × List ProcessorCall :=
  match t.span? id with
  | none => (t, [])
  | some s =>
    let t := t.put id { s with data := none }
    match s.data with
    | none => (t, [])
    | some d =>
      if t.isShutDown then (t, [])
      else
        let settings := t.sampler.snapshot.settings.deferred
        let (marks, forwarded) := Deferred.onEnd settings t.sampler.marks { d with endTime }
        ({ t with sampler := { t.sampler with marks } },
          (forwarded.map ProcessorCall.onEnd).toList)

/-- Judges a span while it runs. -/
def precompute (t : Tracer) (id : String) (now : Int) : Tracer × Strategy :=
  match t.span? id with
  | none => (t, .notMatch)
  | some s =>
    let (marks, strategy) := Deferred.precomputeSpan t.sampler.snapshot.settings.deferred
      t.sampler.marks s.context s.data now
    ({ t with sampler := { t.sampler with marks } }, strategy)

/-- Flushing reaches the processor even after the tracer is shut down. -/
def flush : List ProcessorCall := [.forceFlush]

/-- Shuts down the processor and forgets all marks; answers nothing if that was done before. -/
def shutDown (t : Tracer) : Option (Tracer × List ProcessorCall) :=
  if t.isShutDown then none
  else
    some ({ t with isShutDown := true, sampler := { t.sampler with marks := [] } },
      [.shutDown shutDownTimeoutMs])

end Tracer

end TraceSampling
