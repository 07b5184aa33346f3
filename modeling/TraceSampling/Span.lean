import TraceSampling.Request
import TraceSampling.VendorList

/-!
# Spans

What is known of a span to others, and what is gathered about it until it ends.
-/

namespace TraceSampling

/-- What travels from a span to its children. Bit zero of the flags says that the span is kept. -/
structure SpanContext where
  traceId : TraceId := 0
  spanId : SpanId := 0
  flags : UInt8 := 0
  remote : Bool := false
  vendors : VendorList := {}
  deriving DecidableEq, Repr

namespace SpanContext

def isSampled (c : SpanContext) : Bool := c.flags &&& 1 = 1

def setSampled (c : SpanContext) (sampled : Bool) : SpanContext :=
  { c with flags := if sampled then c.flags ||| 1 else c.flags &&& 0xfe }

end SpanContext

/-- Statuses rise from unset over errors, in the order of their descriptions, to ok. -/
inductive SpanStatus where
  | unset
  | error (description : String)
  | ok
  deriving DecidableEq, Repr

namespace SpanStatus

def isError : SpanStatus → Bool
  | error _ => true
  | _ => false

def isBelow : SpanStatus → SpanStatus → Bool
  | unset, unset => false
  | unset, _ => true
  | error a, error b => decide (a < b)
  | error _, ok => true
  | _, _ => false

end SpanStatus

/-- All that was gathered about a span; an end not yet reached equals the start. -/
structure SpanData where
  context : SpanContext
  name : String
  attributes : List Attribute := []
  droppedAttributes : Nat := 0
  status : SpanStatus := .unset
  startTime : Int
  endTime : Int

/-- The time from start to end, zero if the end lies before the start. -/
def SpanData.duration (d : SpanData) : Nat := (d.endTime - d.startTime).toNat

end TraceSampling
