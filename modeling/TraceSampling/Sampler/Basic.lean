import TraceSampling.Deferred
import TraceSampling.Error
import TraceSampling.HopState.Wire
import TraceSampling.Rotation
import TraceSampling.Sampler.Stage
import TraceSampling.Workflow.Stage

/-!
# The sampler

One decision runs the workflow stage and then the decision stage over the carried state, joins their
answers and brings the lineage into line with the decision. Settings can be replaced at any time;
what was learned stays, and the buckets start full again.
-/

namespace TraceSampling

/-- The stage is fixed when the sampler is made; all else changes from step to step. Without a
rotation the owner renews windows, caches and budgets. -/
structure Sampler where
  service : String
  stage : DecisionStage
  snapshot : Snapshot
  resources : Resources
  edges : Workflow.EdgeCache := {}
  marks : Deferred.Marks := []
  rotation : Option Rotation := none
  isShutDown : Bool := false

structure SamplerOptions where
  service : String := "unknown_service"
  settings : Settings := {}
  stage : DecisionStage := defaultStage
  background : Bool := true

structure SamplingResult where
  decision : Decision
  attributes : List Attribute
  state : HopState

/-- The length of a budget period. -/
def budgetPeriod : Nat := 60 * nanosPerSecond

def Settings.intervals (s : Settings) : PerItem Nat where
  window := s.minSample.window
  cache := s.workflow.cacheLifetime
  budget := budgetPeriod

/-- A kept hop has a kept strategy and no other hop has one; that a strategy is missing is never
handed on. -/
def Lineage.align (l : Lineage) (d : Decision) : Lineage :=
  let l := if l.root = .notExist then { l with root := .notMatch } else l
  if d = .recordAndSample then
    if l.sampled.isSampled then l
    else { l with sampled := .user, root := if l.root.isSampled then l.root else .user }
  else if l.sampled.isSampled ∨ l.sampled = .notExist then { l with sampled := .notMatch }
  else l

namespace Sampler

def make (o : SamplerOptions) (now : Nat) : Sampler :=
  let snapshot := Snapshot.compile o.settings
  let settings := snapshot.settings
  { service := o.service
    stage := o.stage
    snapshot
    resources := ⟨.openedAt now, settings.rateLimit.limiter now⟩
    edges := { limit := settings.workflow.maxInsertionsPerMinute }
    rotation := if o.background then some (.startAt now settings.intervals) else none }

/-! ## Decisions -/

/-- The carried state that a request brings with it. -/
def incoming (r : Request) : HopState := (r.parent.map fun p => HopState.decode p.carried).getD {}

def occasion (s : Sampler) (r : Request) (now : Nat) : Occasion where
  service := s.service
  snapshot := s.snapshot
  request := r
  interface := r.interface s.service
  now := now

def sample (s : Sampler) (r : Request) (now : Nat) : Sampler × SamplingResult :=
  let o := s.occasion r now
  let (edges, hop, found) :=
    Workflow.sample s.snapshot.settings.workflow r o.interface s.edges (incoming r)
  let (st, answer) := s.stage o ⟨s.resources, hop⟩
  let merged := found.merge answer
  ({ s with edges, resources := st.resources },
    { decision := merged.decision
      attributes := merged.attributes
      state := { st.hop with lineage := st.hop.lineage.align merged.decision } })

/-- The parent of a request, as a span context tells of it. -/
def parentOf (c : SpanContext) : Parent where
  traceId := c.traceId
  sampled := c.isSampled
  carried := (c.vendors.get? HopState.vendorKey).getD ""

/-- Decides on a span below a span context and writes the state into the header handed on. -/
def shouldSample (s : Sampler) (r : Request) (parent : Option SpanContext) (now : Nat) :
    Sampler × SamplingResult × VendorList :=
  let (s, result) := s.sample { r with parent := parent.map parentOf } now
  (s, result, result.state.applyTo ((parent.map (·.vendors)).getD {}))

/-! ## Renewal -/

def renew (s : Sampler) (now : Nat) : Item → Sampler
  | .window =>
    { s with resources := { s.resources with windows := s.resources.windows.rotate now } }
  | .cache => { s with edges := s.edges.reset }
  | .budget => { s with edges := s.edges.resetBudget }

/-- Wakes the rotation, if there is one, and renews what it says. -/
def wake (s : Sampler) (w : WakeUp) (now : Nat) : Sampler :=
  match s.rotation with
  | none => s
  | some r =>
    let (r, items) := r.wake w s.snapshot.settings.intervals
    items.foldl (·.renew now) { s with rotation := some r }

/-- Lets the rotation do what is due by now. -/
def catchUp (s : Sampler) (now : Nat) : Sampler :=
  if s.rotation.any fun r => !r.stopped && !(r.dueItems now).isEmpty then s.wake (.timeout now) now
  else s

/-! ## Settings and shutting down -/

/-- Puts new settings in force. -/
def publish (s : Sampler) (settings : Settings) (now : Nat) : Sampler :=
  let snapshot := Snapshot.compile settings
  { s with
    snapshot
    resources := { s.resources with limiter := snapshot.settings.rateLimit.limiter now }
    edges := s.edges.setLimit snapshot.settings.workflow.maxInsertionsPerMinute }

/-- Puts new settings in force and lets the rotation wait for the new deadlines. -/
def update (s : Sampler) (settings : Settings) (now : Nat) : Sampler :=
  ((s.publish settings now).wake .reschedule now).catchUp now

/-- Stops the rotation; decisions go on. -/
def shutDown (s : Sampler) (now : Nat) : Sampler × Except SamplerError Unit :=
  if s.isShutDown then (s, .error .alreadyShutDown)
  else ({ s.wake .stop now with isShutDown := true }, .ok ())

end Sampler

end TraceSampling
