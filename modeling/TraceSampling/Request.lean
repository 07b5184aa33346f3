import TraceSampling.Attribute

/-!
# Requests

What one decision is about: the span that is to start, its parent, and between whom the call runs.
-/

namespace TraceSampling

abbrev TraceId := BitVec 128
abbrev SpanId := BitVec 64

inductive SpanKind where
  | client
  | server
  | producer
  | consumer
  | internal
  deriving DecidableEq, Repr, Inhabited

namespace SpanKind

def name : SpanKind → String
  | client => "client"
  | server => "server"
  | producer => "producer"
  | consumer => "consumer"
  | internal => "internal"

def all : List SpanKind := [client, server, producer, consumer, internal]

def ofName? (s : String) : Option SpanKind := all.find? (·.name = s)

/-- The name in a dump for developers. -/
def label : SpanKind → String
  | client => "Client"
  | server => "Server"
  | producer => "Producer"
  | consumer => "Consumer"
  | internal => "Internal"

end SpanKind

/-- The parent of a span: its trace, its sampled flag, and the state it carried, empty if none. -/
structure Parent where
  traceId : TraceId := 0
  sampled : Bool
  carried : String := ""

structure Request where
  traceId : TraceId
  name : String
  kind : SpanKind
  attributes : List Attribute := []
  parent : Option Parent := none

/-- Who calls whom in a span. -/
structure Interface where
  callerService : String
  callerMethod : String
  calleeService : String
  calleeMethod : String
  deriving DecidableEq, Repr

namespace Request

/-- The value of the first attribute with a key. -/
def attribute? (r : Request) (key : String) : Option Value :=
  (Attribute.first? r.attributes key).map (·.value)

/-- The first filled text under the given keys, in the order of the keys. -/
def firstOf? (r : Request) (keys : List String) : Option String :=
  keys.findSome? (Attribute.filledText? r.attributes)

/-- The interface of a span of a service. Attributes name the other side; this side and whatever
they leave open come from the service and the span itself. -/
def interface (r : Request) (service : String) : Interface :=
  let calleeMethod := (r.firstOf? [Key.calleeMethod, Key.rpcMethod]).getD r.name
  match r.kind with
  | .client | .producer =>
    { callerService := (r.firstOf? [Key.callerService]).getD service
      callerMethod := (r.firstOf? [Key.callerMethod]).getD r.name
      calleeService := (r.firstOf? [Key.calleeService, Key.rpcService, Key.peerService]).getD ""
      calleeMethod }
  | .server | .consumer =>
    { callerService := (r.firstOf? [Key.callerService, Key.peerService]).getD ""
      callerMethod := (r.firstOf? [Key.callerMethod]).getD ""
      calleeService := (r.firstOf? [Key.calleeService]).getD service
      calleeMethod }
  | .internal =>
    { callerService := service, callerMethod := r.name, calleeService := service, calleeMethod }

end Request

end TraceSampling
