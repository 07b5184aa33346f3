import TraceSampling.Decision
import TraceSampling.HopState.Basic
import TraceSampling.Request
import TraceSampling.Settings.Basic
import TraceSampling.Workflow.EdgeCache
import TraceSampling.Workflow.Path

/-!
# The workflow stage

Every span at an end of a call is half of an edge of the call graph. A half that was not seen before
is recorded, but not sampled, so that hops further on are not forced to follow; the caller marks the
edge as new, which tells the other half to record its side too.
-/

namespace TraceSampling.Workflow

/-- Spans inside a service sit on no edge. -/
def Side.of? : SpanKind → Option Side
  | .client | .producer => some .client
  | .server | .consumer => some .server
  | .internal => none

structure Edge where
  path : UInt64
  parentPath : UInt64
  deriving DecidableEq, Repr

/-- The edge from a node into the callee. -/
def Edge.below (parentPath : UInt64) (i : Interface) : Edge :=
  ⟨childPath parentPath i.calleeService i.calleeMethod, parentPath⟩

/-- The edge at which a call starts. -/
def Edge.first (i : Interface) : Edge := .below (rootPath i.callerService i.callerMethod) i

/-- The edge of a span: the caller goes on from the node that reached it, and the other end takes
over what the caller has computed. -/
def Edge.of (side : Side) (incoming : WorkflowMark) (i : Interface) : Edge :=
  if incoming.path = 0 then .first i
  else
    match side with
    | .client => .below incoming.path i
    | .server => ⟨incoming.path, incoming.parentPath⟩

/-- What becomes of an edge, and the cache behind it. -/
def visit (cache : EdgeCache) (side : Side) (edge : Edge) (legacySampled : Bool)
    (incoming : WorkflowMark) (maxPaths : Nat) : EdgeCache × EdgeResult × Decision :=
  if legacySampled then (cache, .randomLegacy, .drop)
  else if side = .server ∧ incoming.result = .path then
    ((cache.insertUnbudgeted .server edge.path maxPaths).1, .sample, .recordOnly)
  else
    match cache.insert side edge.path maxPaths with
    | (cache, .inserted) => (cache, .path, .recordOnly)
    | (cache, _) => (cache, .drop, .drop)

def attributes (m : WorkflowMark) : List Attribute :=
  [⟨Key.workflowPath, .int m.path.toInt64⟩,
    ⟨Key.workflowParentPath, .int m.parentPath.toInt64⟩,
    ⟨Key.workflowResult, .text m.result.name⟩]

/-- A disabled stage and a span on no edge leave everything as it is. -/
def sample (settings : WorkflowSettings) (r : Request) (i : Interface) (cache : EdgeCache)
    (hop : HopState) : EdgeCache × HopState × StageResult :=
  if settings.enabled = false then (cache, hop, .dropped)
  else
    match Side.of? r.kind with
    | none => (cache, hop, .dropped)
    | some side =>
      let edge := Edge.of side hop.workflow i
      let legacySampled := hop.isLegacy && r.parent.any (·.sampled)
      let (cache, result, decision) :=
        visit cache side edge legacySampled hop.workflow settings.maxPaths
      let mark := { result, path := edge.path, parentPath := edge.parentPath }
      (cache, { hop with workflow := mark }, { decision, attributes := attributes mark })

end TraceSampling.Workflow
